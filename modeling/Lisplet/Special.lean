namespace Lisplet

-- Forms whose operands are not evaluated first.
inductive Special where
  | quote | quasiquote | unquote | splice
  | branch | define | lambda | sequence | cons
deriving DecidableEq, Repr

namespace Special

-- Two keywords make procedures.
def ofKeyword? : String → Option Special
  | "quote" => some quote
  | "quasiquote" => some quasiquote
  | "unquote" => some unquote
  | "unquotesplicing" => some splice
  | "if" => some branch
  | "def" => some define
  | "lambda" => some lambda
  | "fn" => some lambda
  | "do" => some sequence
  | "cons" => some cons
  | _ => none

def keyword : Special → String
  | quote => "quote"
  | quasiquote => "quasiquote"
  | unquote => "unquote"
  | splice => "unquotesplicing"
  | branch => "if"
  | define => "def"
  | lambda => "lambda"
  | sequence => "do"
  | cons => "cons"

end Special

end Lisplet
