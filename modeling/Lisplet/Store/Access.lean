import Lisplet.Eval.Error
import Lisplet.Store.Basic

namespace Lisplet.Store

-- A host program makes scopes of its own, and these may lie in none.
def make (store : Store) (params : List String) (args : List Expr) (outer : Option FrameId) :
    Except EvalError (FrameId × Store) :=
  match store.enter? params args outer with
  | some made => .ok made
  | none => .error (.argumentCount params.length args.length)

def lookup (store : Store) (id : FrameId) (name : String) : Except EvalError Expr :=
  match store.lookup? id name with
  | some value => .ok value
  | none => .error (.unbound name)

def contains (store : Store) (id : FrameId) (name : String) : Bool := (store.find? id name).isSome

-- Several definitions in one scope, the first entry first.
def update (store : Store) (id : FrameId) (entries : List (String × Expr)) : Store :=
  entries.foldl (fun store entry => store.define id entry.1 entry.2) store

end Lisplet.Store
