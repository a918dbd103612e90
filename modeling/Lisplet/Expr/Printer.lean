import Lisplet.Expr.Basic

namespace Lisplet.Expr

mutual

-- The canonical text. Strings are kept as they were read, so there is nothing to escape.
def render : Expr → String
  | .symbol name => name
  | .number n => n.render
  | .bool b => if b then "true" else "false"
  | .str text => "\"" ++ text ++ "\""
  | .list items => "(" ++ renderItems items ++ ")"
  | .builtin p => "#<builtin " ++ p.name ++ ">"
  | .closure params body _ => "(lambda (" ++ " ".intercalate params ++ ") " ++ body.render ++ ")"

def renderItems : List Expr → String
  | [] => ""
  | [item] => item.render
  | item :: rest => item.render ++ " " ++ renderItems rest

end

-- How a host program shows a closure.
def inspect (closure : Expr) : String := "Closure(" ++ closure.render ++ ")"

mutual

-- Every integer inside has a text.
def printable : Expr → Bool
  | .number n => n.printable
  | .list items => printableItems items
  | .closure _ body _ => body.printable
  | .symbol _ | .bool _ | .str _ | .builtin _ => true

def printableItems : List Expr → Bool
  | [] => true
  | item :: rest => item.printable && printableItems rest

end

end Lisplet.Expr
