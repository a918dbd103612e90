import Lisplet.Expr.Printer
import Lisplet.Store.Basic

namespace Lisplet

namespace Bindings

def render (bindings : Bindings) : String :=
  let pairs := bindings.map fun (name, value) => name ++ ": " ++ value.render
  "\x7b" ++ ", ".intercalate pairs ++ "\x7d"

def printable (bindings : Bindings) : Bool := bindings.all fun (_, value) => value.printable

end Bindings

namespace Store

-- The own bindings of a scope, with a hint at those around it.
def renderFrame (store : Store) (id : FrameId) : String :=
  match store.frame? id with
  | none => ""
  | some frame => frame.bindings.render ++ (if frame.outer.isSome then " -> ..." else "")

def printableFrame (store : Store) (id : FrameId) : Bool :=
  (store.frame? id).all fun frame => frame.bindings.printable

-- The bindings of a scope and of all around it.
def renderChain (store : Store) (id : FrameId) : String :=
  let texts := (store.scopes id).map fun scope =>
    ((store.frame? scope).map fun frame => frame.bindings.render).getD ""
  "<Environment chain: " ++ " -> ".intercalate texts ++ ">"

def printableChain (store : Store) (id : FrameId) : Bool :=
  (store.scopes id).all store.printableFrame

end Store

end Lisplet
