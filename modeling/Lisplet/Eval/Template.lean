import Lisplet.Eval.Plan

namespace Lisplet

-- The two-item lists that mean something inside a template.
inductive Quasi where
  | quasiquote | unquote | splice
deriving DecidableEq, Repr

namespace Quasi

def ofKeyword? : String → Option Quasi
  | "quasiquote" => some quasiquote
  | "unquote" => some unquote
  | "unquotesplicing" => some splice
  | _ => none

end Quasi

namespace Template

mutual

-- A copy of the template with its holes filled. A quasiquote inside raises the level and an
-- unquote lowers it; a hole is an unquote that would lower it to zero.
def fill (scope : FrameId) (level : Nat) : Expr → Plan Expr
  | .list [.symbol name, body] =>
    match Quasi.ofKeyword? name with
    | some .quasiquote => do
      return .list [.symbol name, ← fill scope (level + 1) body]
    | some .unquote =>
      if level ≤ 1 then Plan.evaluate scope body
      else do return .list [.symbol name, ← fill scope (level - 1) body]
    | some .splice =>
      if level ≤ 1 then Plan.fail .spliceOutsideList
      else do return .list [.symbol name, ← fill scope (level - 1) body]
    | none => do return .list (← fillItems scope level [.symbol name, body])
  | .list items => do return .list (← fillItems scope level items)
  | e => return e

-- Items are filled from left to right. A splice hole among them gives way to all items of its
-- value.
def fillItems (scope : FrameId) (level : Nat) : List Expr → Plan (List Expr)
  | [] => return []
  | .list [.symbol name, body] :: rest =>
    if Quasi.ofKeyword? name = some .splice ∧ level ≤ 1 then do
      match ← Plan.evaluate scope body with
      | .list items => return items ++ (← fillItems scope level rest)
      | _ => Plan.fail .spliceNotList
    else do
      let item ← fill scope level (.list [.symbol name, body])
      return item :: (← fillItems scope level rest)
  | item :: rest => do
    let item ← fill scope level item
    return item :: (← fillItems scope level rest)

end

end Template

end Lisplet
