import Lisplet.Binary64.Text

namespace Lisplet

-- An exact integer or a double. An integer stays exact until it meets a double.
inductive Number where
  | int (n : Int)
  | float (x : Binary64)
deriving DecidableEq, Repr

namespace Number

-- Integers with more digits than this have no text.
def digitLimit : Nat := 4300

-- Integers that round to infinity do not widen.
def widen? : Number → Option Binary64
  | .int n => Binary64.ofInt? n
  | .float x => some x

def isFloat : Number → Bool
  | .int _ => false
  | .float _ => true

def int? : Number → Option Int
  | .int n => some n
  | .float _ => none

-- Equality of the widened values. An integer that does not widen lies beyond every double,
-- so it equals only itself.
def eq (a b : Number) : Bool :=
  match a.widen?, b.widen? with
  | some x, some y => x.eq y
  | _, _ => a = b

-- Equal numbers hash alike. Only an integer that does not widen has a hash of its own.
def hash (n : Number) : UInt64 :=
  match n.widen?, n with
  | some x, _ => x.hash
  | none, .int k => Hashable.hash k
  | none, .float x => x.hash

def printable : Number → Bool
  | .int n => n.natAbs < Nat.pow 10 digitLimit
  | .float _ => true

def render : Number → String
  | .int n => if n < 0 then "-" ++ Nat.repr n.natAbs else Nat.repr n.natAbs
  | .float x => x.render

-- The signed digits of an integer literal.
def intLiteral? (chars : List Char) : Option (Int × Nat) :=
  let (negative, digits) := splitSign chars
  if digits ≠ [] ∧ digits.all Char.isDigit then
    let size := Nat.ofDigitChars 10 digits 0
    some (if negative then -(size : Int) else size, digits.length)
  else none

-- An integer literal that is too long or does not widen reads as a double, like any decimal.
def ofLiteral? (chars : List Char) : Option Number :=
  let (negative, rest) := splitSign chars
  let float := (Decimal.ofChars? rest).map fun d => .float (Binary64.ofDecimal negative d)
  match intLiteral? chars with
  | some (n, count) =>
    if count ≤ digitLimit ∧ (Binary64.ofInt? n).isSome then some (.int n) else float
  | none => float

end Number

end Lisplet
