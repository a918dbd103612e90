import Lisplet.Binary64.Basic

namespace Lisplet

-- The value digits * 10^exponent. Many decimals name the same value.
structure Decimal where
  digits : Nat
  exponent : Int
deriving DecidableEq, Repr

namespace Decimal

open Binary64

def digitCount (n : Nat) : Nat := (Nat.toDigits 10 n).length

-- The value lies below this power of ten and, if it is not zero, not below the power before it.
def order (d : Decimal) : Int := d.exponent + digitCount d.digits

-- The nearest magnitude. Values from 10^310 up are infinite and those below 10^-330 vanish, so
-- no power of ten is computed that the digits do not make up for.
def rank (d : Decimal) : Rank :=
  if d.digits = 0 then clampRank 0
  else if 310 < d.order then clampRank infinityRank
  else if d.order < -330 then clampRank 0
  else nearestRank (d.digits * Nat.pow 10 d.exponent.toNat * unitScale)
    (Nat.pow 10 (-d.exponent).toNat)

-- Powers of two below one have finite decimals: 2^-1074 = 5^1074 * 10^-1074.
def exact (rank : Rank) : Decimal := ⟨units rank.val * Nat.pow 5 1074, -1074⟩

-- The exponent of the leading digit of a positive quotient.
def leadExponent (num den : Nat) : Int :=
  if den ≤ num then digitCount (num / den) - 1 else -digitCount ((den - 1) / num)

-- The decimal with this exponent that is nearest to num/den among those that round to the rank.
-- Only the two neighbours of the quotient need a look: whatever lies between the quotient and
-- a decimal that rounds to the rank rounds to it too.
def nearestOn (num den : Nat) (rank : Rank) (exponent : Int) : Option Decimal :=
  let num := num * Nat.pow 10 (-exponent).toNat
  let den := den * Nat.pow 10 exponent.toNat
  let below : Decimal := ⟨num / den, exponent⟩
  let above : Decimal := ⟨num / den + 1, exponent⟩
  if below.rank = rank then
    if above.rank = rank then some ⟨roundDiv num den, exponent⟩ else some below
  else if above.rank = rank then some above
  else none

-- The fewest digits that round to the rank, and of those the nearest. Seventeen always do; the
-- exact value only stands behind them.
def shortest (rank : Rank) : Decimal :=
  let num := units rank.val
  let lead := leadExponent num unitScale
  ((List.range 17).findSome? fun (more : Nat) => nearestOn num unitScale rank (lead - more)).getD
    (exact rank)

end Decimal

def Binary64.ofDecimal (negative : Bool) (d : Decimal) : Binary64 := .signed negative d.rank

end Lisplet
