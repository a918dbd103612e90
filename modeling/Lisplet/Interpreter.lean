import Lisplet.Eval.Basic
import Lisplet.Host.Config
import Lisplet.Reader.Input

namespace Lisplet

-- Evaluates whole programs in one scope.
structure Interpreter where
  limit : Int
  scope : FrameId

namespace Interpreter

-- The global scope is the first scope of every machine.
def ofHost (host : Host) : Except Failure Interpreter := do return ⟨← host.maxDepth, 0⟩

def evalForm (interpreter : Interpreter) (e : Expr) : EvalM Expr :=
  eval interpreter.limit interpreter.scope e

-- A file that cannot be read to its end has no right end.
def readFailure (fault : Option DecodeError) (error : ReadError) : Failure :=
  match fault with
  | some fault => if error.isAtEnd then .undecodable fault else .read error
  | none => .read error

-- Each form is evaluated before the next one is read. The value is that of the last form.
def evalInput (interpreter : Interpreter) (fault : Option DecodeError) (input : Input)
    (last : Option Expr) : EvalM (Option Expr) :=
  match _h : input.read .quotes with
  | (.ok none, _) =>
    match fault with
    | some fault => throw (.undecodable fault)
    | none => return last
  | (.error error, _) => throw (readFailure fault error)
  | (.ok (some e), rest) => do
    let value ← interpreter.evalForm e
    evalInput interpreter fault rest (some value)
termination_by input.size
decreasing_by exact Input.read_size_lt ‹_›

def evalText (interpreter : Interpreter) (text : String) : EvalM (Option Expr) :=
  evalInput interpreter none (Input.ofText text) none

def load (interpreter : Interpreter) (host : Host) (text : String) : EvalM (Option Expr) :=
  match host.resolve? text with
  | .error failure => throw failure
  | .ok none => throw (.missingSource text)
  | .ok (some (path, contents)) => do
    EvalM.write .debug ("interpreter.load path=" ++ path.text)
    let file := SourceFile.ofBytes contents
    evalInput interpreter file.error (Input.ofLines file.lines) none

end Interpreter

end Lisplet
