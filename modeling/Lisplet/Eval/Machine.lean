import Lisplet.Failure
import Lisplet.Log
import Lisplet.Store.Basic

namespace Lisplet

-- What an evaluation changes: the scopes, the number of evaluations that are under way, and the
-- log with its latest record last.
structure Machine where
  store : Store
  depth : Nat
  log : List LogRecord

namespace Machine

def start : Machine := ⟨.global, 0, []⟩

end Machine

-- A computation on a machine. What it did before it failed stays done.
abbrev EvalM (α : Type) : Type := ExceptT Failure (StateM Machine) α

namespace EvalM

def fail (error : EvalError) : EvalM α := throw (.ofEvalError error)

def write (level : LogLevel) (message : String) : EvalM Unit :=
  modify fun machine => { machine with log := machine.log ++ [⟨level, message⟩] }

-- Counts as one more evaluation under way until it ends, well or not.
def nested (action : EvalM α) : EvalM α :=
  ExceptT.mk do
    modify fun machine => { machine with depth := machine.depth + 1 }
    let result ← action.run
    modify fun machine => { machine with depth := machine.depth - 1 }
    return result

-- Refuses to go on where the limit is reached. A limit without text is not logged either.
def guardDepth (limit : Int) : EvalM Unit := do
  let machine ← get
  if limit ≤ machine.depth then
    if (Number.int limit).printable then
      write .warning ("evaluator.depth_exceeded max_depth=" ++ toString limit)
    fail (.tooDeep limit)

def lookup (scope : FrameId) (name : String) : EvalM Expr := do
  match (← get).store.lookup? scope name with
  | some value => return value
  | none => fail (.unbound name)

def define (scope : FrameId) (name : String) (value : Expr) : EvalM Unit :=
  modify fun machine => { machine with store := machine.store.define scope name value }

-- Makes a scope in which the parameters have the arguments as values.
def enter (params : List String) (args : List Expr) (outer : FrameId) : EvalM FrameId := do
  let machine ← get
  match machine.store.enter? params args (some outer) with
  | some (scope, store) =>
    set { machine with store := store }
    return scope
  | none => fail (.argumentCount params.length args.length)

end EvalM

end Lisplet
