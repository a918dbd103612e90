namespace Lisplet

namespace Binary64

-- Every finite magnitude is a whole number of units of 2^-1074.
def unitScale : Nat := Nat.pow 2 1074

-- Each binade holds this many magnitudes.
def binadeSize : Nat := Nat.pow 2 52

-- The magnitudes are numbered upwards from zero; infinity is the last of them.
def infinityRank : Nat := 2047 * binadeSize

abbrev Rank : Type := Fin (infinityRank + 1)

end Binary64

-- A double-precision number. The rank orders magnitudes, so comparisons never decode them,
-- and there is only one NaN.
inductive Binary64 where
  | nan
  | signed (negative : Bool) (rank : Binary64.Rank)
deriving DecidableEq, Repr

namespace Binary64

-- Ranks past the last one all mean infinity.
def clampRank (rank : Nat) : Rank :=
  ⟨min rank infinityRank, Nat.lt_succ_of_le (Nat.min_le_right ..)⟩

def zero (negative : Bool) : Binary64 := .signed negative (clampRank 0)

def infinity (negative : Bool) : Binary64 := .signed negative (clampRank infinityRank)

-- The number of units in a finite magnitude. The first two binades share a spacing of one unit,
-- every later one doubles it.
def units (rank : Nat) : Nat :=
  let shift := rank / binadeSize - 1
  (rank - shift * binadeSize) * Nat.pow 2 shift

-- The quotient rounded to the nearest whole number, a half to the even neighbour.
def roundDiv (num den : Nat) : Nat :=
  let quotient := num / den
  let twice := 2 * (num % den)
  if twice < den then quotient
  else if den < twice then quotient + 1
  else quotient + quotient % 2

-- The rank nearest to num/den units. Significands of 2^53 need no case of their own:
-- they carry into the next binade.
def nearestRank (num den : Nat) : Rank :=
  let shift := Nat.log2 (num / den) - 52
  clampRank (shift * binadeSize + roundDiv num (den * Nat.pow 2 shift))

def isZero : Binary64 → Bool
  | .nan => false
  | .signed _ rank => rank.val == 0

def isFinite : Binary64 → Bool
  | .nan => false
  | .signed _ rank => rank.val < infinityRank

def neg : Binary64 → Binary64
  | .nan => .nan
  | .signed negative rank => .signed (!negative) rank

-- The exact value in units, for a finite number.
def signedUnits (negative : Bool) (rank : Rank) : Int :=
  if negative then -(units rank.val : Int) else units rank.val

-- An exact zero sum is negative only if both terms are.
def add : Binary64 → Binary64 → Binary64
  | .nan, _ => .nan
  | _, .nan => .nan
  | .signed s a, .signed t b =>
    if a.val = infinityRank then
      if b.val = infinityRank ∧ s ≠ t then .nan else .signed s a
    else if b.val = infinityRank then .signed t b
    else
      let sum := signedUnits s a + signedUnits t b
      if sum = 0 then zero (s && t)
      else .signed (sum < 0) (nearestRank sum.natAbs 1)

def sub (x y : Binary64) : Binary64 := add x y.neg

def mul : Binary64 → Binary64 → Binary64
  | .nan, _ => .nan
  | _, .nan => .nan
  | .signed s a, .signed t b =>
    if a.val = infinityRank ∨ b.val = infinityRank then
      if a.val = 0 ∨ b.val = 0 then .nan else infinity (s ^^ t)
    else .signed (s ^^ t) (nearestRank (units a.val * units b.val) unitScale)

-- Division by a zero of either sign has no value, whatever is divided.
def div? : Binary64 → Binary64 → Option Binary64
  | _, .nan => some .nan
  | .nan, y => if y.isZero then none else some .nan
  | .signed s a, .signed t b =>
    if b.val = 0 then none
    else if a.val = infinityRank then
      if b.val = infinityRank then some .nan else some (infinity (s ^^ t))
    else if b.val = infinityRank then some (zero (s ^^ t))
    else some (.signed (s ^^ t) (nearestRank (units a.val * unitScale) (units b.val)))

-- The position on the number line, the same for both zeros.
def position (negative : Bool) (rank : Rank) : Int :=
  if negative then -(rank.val : Int) else rank.val

-- Comparisons with NaN are false.
def compareBy (holds : Int → Int → Bool) : Binary64 → Binary64 → Bool
  | .signed s a, .signed t b => holds (position s a) (position t b)
  | _, _ => false

def eq (x y : Binary64) : Bool := compareBy (fun a b => a == b) x y

def lt (x y : Binary64) : Bool := compareBy (fun a b => a < b) x y

def le (x y : Binary64) : Bool := compareBy (fun a b => a ≤ b) x y

-- Equal numbers hash alike, the two zeros included.
def hash : Binary64 → UInt64
  | .nan => 0
  | .signed negative rank => Hashable.hash (position negative rank)

-- An integer that rounds to infinity has no conversion.
def ofInt? (n : Int) : Option Binary64 :=
  let x := signed (n < 0) (nearestRank (n.natAbs * unitScale) 1)
  if x.isFinite then some x else none

end Binary64

end Lisplet
