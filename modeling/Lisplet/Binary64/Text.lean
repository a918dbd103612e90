import Lisplet.Binary64.Decimal

namespace Lisplet

-- A leading sign is optional; only a minus makes the rest negative.
def splitSign : List Char → Bool × List Char
  | '+' :: rest => (false, rest)
  | '-' :: rest => (true, rest)
  | chars => (false, chars)

namespace Decimal

-- The exponent mark with its digits, or nothing at all.
def exponent? : List Char → Option Int
  | [] => some 0
  | mark :: rest =>
    let (negative, digits) := splitSign rest
    if (mark = 'e' ∨ mark = 'E') ∧ digits ≠ [] ∧ digits.all Char.isDigit then
      let size := Nat.ofDigitChars 10 digits 0
      some (if negative then -(size : Int) else size)
    else none

-- An unsigned literal: digits with an optional point, at least one digit on either side of it,
-- and an optional exponent.
def ofChars? (chars : List Char) : Option Decimal :=
  let whole := chars.takeWhile Char.isDigit
  let rest := chars.dropWhile Char.isDigit
  let fraction := match rest with
    | '.' :: rest => rest.takeWhile Char.isDigit
    | _ => []
  let rest := match rest with
    | '.' :: rest => rest.dropWhile Char.isDigit
    | _ => rest
  if whole = [] ∧ fraction = [] then none
  else (exponent? rest).map fun exponent =>
    ⟨Nat.ofDigitChars 10 (whole ++ fraction) 0, exponent - fraction.length⟩

-- Exponents in this range are written out in place, all others with an exponent mark.
def positional (lead : Int) : Bool := -4 ≤ lead && lead < 16

def exponentMark (lead : Int) : List Char :=
  let digits := Nat.toDigits 10 lead.natAbs
  'e' :: (if lead < 0 then '-' else '+') :: (List.replicate (2 - digits.length) '0' ++ digits)

-- The digits without their trailing zeros, and how many of those there were.
def significant (n : Nat) : List Char × Nat :=
  let reversed := (Nat.toDigits 10 n).reverse
  ((reversed.dropWhile (· == '0')).reverse, (reversed.takeWhile (· == '0')).length)

-- Positional text always shows a point, with a zero on a side that has no digits.
def layout (d : Decimal) : List Char :=
  let (digits, zeros) := significant d.digits
  let exponent := d.exponent + zeros
  let lead := exponent + digits.length - 1
  if d.digits = 0 then ['0', '.', '0']
  else if !positional lead then
    let tail := digits.drop 1
    digits.take 1 ++ (if tail = [] then [] else '.' :: tail) ++ exponentMark lead
  else if lead < 0 then '0' :: '.' :: (List.replicate (-lead - 1).toNat '0' ++ digits)
  else if 0 ≤ exponent then digits ++ List.replicate exponent.toNat '0' ++ ['.', '0']
  else
    let split := (lead + 1).toNat
    digits.take split ++ '.' :: digits.drop split

end Decimal

namespace Binary64

def chars : Binary64 → List Char
  | .nan => ['n', 'a', 'n']
  | .signed negative rank =>
    (if negative then ['-'] else []) ++
      if rank.val = infinityRank then ['i', 'n', 'f'] else (Decimal.shortest rank).layout

def render (x : Binary64) : String := String.ofList x.chars

-- Reads a decimal literal or one of the names of the values without digits.
def ofText? (text : String) : Option Binary64 :=
  if text = "nan" then some .nan
  else
    let (negative, rest) := splitSign text.toList
    if rest = ['i', 'n', 'f'] then some (infinity negative)
    else (Decimal.ofChars? rest).map (ofDecimal negative)

end Binary64

end Lisplet
