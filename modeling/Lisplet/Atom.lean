import Lisplet.Expr.Basic

namespace Lisplet

-- The expression that a single token stands for. A token that opens with a quote loses its first
-- and last characters, closed or not; whatever is nothing else is a symbol.
def atom (token : String) : Expr :=
  match token.toList with
  | '"' :: tail => .str (String.ofList tail.dropLast)
  | chars =>
    if token = "true" then .bool true
    else if token = "false" then .bool false
    else match Number.ofLiteral? chars with
      | some n => .number n
      | none => .symbol token

end Lisplet
