import Lisplet.Number
import Lisplet.Primitive

namespace Lisplet

-- Scopes are numbered in the order of their creation.
abbrev FrameId : Type := Nat

-- Programs and values alike. A closure names the scope it was made in and does not copy it.
inductive Expr where
  | symbol (name : String)
  | number (n : Number)
  | bool (b : Bool)
  | str (text : String)
  | list (items : List Expr)
  | builtin (p : Primitive)
  | closure (params : List String) (body : Expr) (scope : FrameId)
deriving Repr, Inhabited

namespace Expr

def isFalse : Expr → Bool
  | .bool false => true
  | _ => false

def symbol? : Expr → Option String
  | .symbol name => some name
  | _ => none

-- A position counted from the front, or from the back if it is negative.
def position? (length : Nat) (index : Int) : Option Nat :=
  let position := if index < 0 then index + length else index
  if 0 ≤ position ∧ position < length then some position.toNat else none

def nth? (items : List Expr) (index : Int) : Option Expr :=
  (position? items.length index).bind fun position => items[position]?

-- A negative count keeps that many items at the back.
def skip (items : List Expr) (count : Int) : List Expr :=
  if count < 0 then items.drop (count + items.length).toNat else items.drop count.toNat

end Expr

end Lisplet
