namespace Lisplet

-- The procedures the language comes with, and a host procedure that hands back the list of its
-- arguments under a name of the host's choice.
inductive Primitive where
  | add | sub | mul | div
  | gt | ge | lt | le | eq
  | first | rest
  | arguments (name : String)
deriving DecidableEq, Repr

namespace Primitive

def name : Primitive → String
  | add => "+"
  | sub => "-"
  | mul => "*"
  | div => "/"
  | gt => ">"
  | ge => ">="
  | lt => "<"
  | le => "<="
  | eq => "=="
  | first => "first"
  | rest => "rest"
  | arguments name => name

-- Those bound in the global scope, in the order of its text.
def globals : List Primitive := [add, sub, mul, div, gt, ge, lt, le, eq, first, rest]

def ofName? (name : String) : Option Primitive := globals.find? fun p => p.name == name

end Primitive

end Lisplet
