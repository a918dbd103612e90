import Lisplet.Eval.Error
import Lisplet.Path
import Lisplet.Reader.Error
import Lisplet.SourceFile
import Lisplet.Text.Quoted

namespace Lisplet

-- Everything that can end a program early. Only the first two are errors of the language.
inductive Failure where
  | read (error : ReadError)
  | eval (error : EvalError)
  | digitLimit
  | missingSource (path : String)
  | nameTooLong (path : Path)
  | undecodable (error : DecodeError)
  | depthNotInteger (text : String)
  | depthNotPositive (depth : Int)
  | unknownLevel (name : String)
  | missingText

namespace Failure

-- An error whose message cannot be made gives way to the reason for that.
def ofEvalError (error : EvalError) : Failure :=
  if error.printable then .eval error else .digitLimit

def digitLimitMessage : String :=
  "Exceeds the limit (4300 digits) for integer string conversion; " ++
    "use sys.set_int_max_str_digits() to increase the limit"

def message : Failure → String
  | read error => error.message
  | eval error => error.message
  | digitLimit => digitLimitMessage
  | missingSource path => "Cannot find source file '" ++ path ++ "' (searched DOTLISP_PATH)"
  | nameTooLong path => "[Errno 36] File name too long: " ++ quoted path.text
  | undecodable error => error.message
  | depthNotInteger text => "DOTLISP_MAX_DEPTH must be an integer, got " ++ quoted text
  | depthNotPositive depth => "DOTLISP_MAX_DEPTH must be positive, got " ++ toString depth
  | unknownLevel name => "Level '" ++ name ++ "' does not exist"
  | missingText => "'list' object has no attribute 'readline'"

-- The kind that reports give for an error of the language.
def languageKind? : Failure → Option String
  | read _ => some "ParserError"
  | eval error => some error.kind.name
  | _ => none

end Failure

end Lisplet
