import Lisplet.Proofs.Reader.Readable

namespace Lisplet

-- What the conversions of the host raise. They are not made for every text, nor for every integer.
inductive Refusal where
  | tooManyDigits
  | overflow
  | malformed
deriving DecidableEq, Repr

instance (chars : List Char) : Decidable (IsIntegerText chars) :=
  decidable_of_iff _ (Number.isSome_intLiteral?_iff chars)

instance (chars : List Char) : Decidable (IsDecimalText chars) :=
  decidable_of_iff _ (Number.isSome_float_iff chars)

namespace Bare

def intOfText (chars : List Char) : Except Refusal Int :=
  match Number.intLiteral? chars with
  | some (n, count) => if count ≤ Number.digitLimit then return n else throw .tooManyDigits
  | none => throw .malformed

-- An integer that has no double overflows.
def orOverflow : Option Binary64 → Except Refusal Binary64
  | some x => return x
  | none => throw .overflow

def floatOfInt (n : Int) : Except Refusal Binary64 := orOverflow (Binary64.ofInt? n)

-- A decimal that is too large is infinite here.
def floatOfText (chars : List Char) : Except Refusal Binary64 :=
  let (negative, rest) := splitSign chars
  match Decimal.ofChars? rest with
  | some d => return .ofDecimal negative d
  | none => throw .malformed

-- An integer is kept if it has a double as well.
def exact (chars : List Char) : Except Refusal Number := do
  let n ← intOfText chars
  let _ ← floatOfInt n
  return .int n

def rounded (chars : List Char) : Except Refusal Number := do return .float (← floatOfText chars)

-- Whatever the conversions of an integer literal raise is handled.
def literal (chars : List Char) : Except Refusal (Option Number) := do
  if IsIntegerText chars then
    let n ← try exact chars catch _ => rounded chars
    return some n
  else if IsDecimalText chars then return some (← rounded chars)
  else return none

def atom (token : String) : Except Refusal Expr := do
  match token.toList with
  | '"' :: tail => return .str (String.ofList tail.dropLast)
  | chars =>
    if token = "true" then return .bool true
    else if token = "false" then return .bool false
    else match ← literal chars with
      | some n => return .number n
      | none => return .symbol token

theorem intOfText_eq {chars : List Char} {n : Int} {count : Nat}
    (h : Number.intLiteral? chars = some (n, count)) :
    intOfText chars = if count ≤ Number.digitLimit then pure n else throw .tooManyDigits := by
  rw [intOfText, h]

theorem exact_of_fits {chars : List Char} {n : Int} {count : Nat}
    (h : Number.intLiteral? chars = some (n, count))
    (hfits : count ≤ Number.digitLimit ∧ (Binary64.ofInt? n).isSome) :
    exact chars = .ok (.int n) := by
  obtain ⟨x, hx⟩ := Option.isSome_iff_exists.mp hfits.2
  rw [exact, intOfText_eq h, if_pos hfits.1, pure_bind, floatOfInt, hx]
  rfl

theorem exact_of_limits {chars : List Char} {n : Int} {count : Nat}
    (h : Number.intLiteral? chars = some (n, count))
    (hlimits : ¬(count ≤ Number.digitLimit ∧ (Binary64.ofInt? n).isSome)) :
    ∃ refusal, exact chars = .error refusal := by
  rw [exact, intOfText_eq h]
  by_cases hcount : count ≤ Number.digitLimit
  · have hnone : Binary64.ofInt? n = none :=
      Option.not_isSome_iff_eq_none.mp fun hsome => hlimits ⟨hcount, hsome⟩
    rw [if_pos hcount, pure_bind, floatOfInt, hnone]
    exact ⟨.overflow, rfl⟩
  · rw [if_neg hcount]
    exact ⟨.tooManyDigits, rfl⟩

theorem rounded_eq {chars : List Char} (h : IsDecimalText chars) :
    ∃ d, Decimal.ofChars? (splitSign chars).2 = some d ∧
      rounded chars = .ok (.float (.ofDecimal (splitSign chars).1 d)) := by
  obtain ⟨d, hd⟩ := Option.isSome_iff_exists.mp ((Number.isSome_float_iff chars).mpr h)
  refine ⟨d, hd, ?_⟩
  simp only [rounded, floatOfText, hd]
  rfl

theorem literal_eq (chars : List Char) : literal chars = .ok (Number.ofLiteral? chars) := by
  by_cases hinteger : IsIntegerText chars
  · obtain ⟨d, hd, hrounded⟩ := rounded_eq hinteger.isDecimalText
    obtain ⟨⟨n, count⟩, hint⟩ :=
      Option.isSome_iff_exists.mp ((Number.isSome_intLiteral?_iff chars).mpr hinteger)
    simp only [literal, if_pos hinteger, Number.ofLiteral?, hint, hd, Option.map_some]
    split
    · next hfits =>
      rw [exact_of_fits hint hfits]
      rfl
    · next hlimits =>
      obtain ⟨refusal, hrefusal⟩ := exact_of_limits hint hlimits
      rw [hrefusal, hrounded]
      rfl
  · have hint : Number.intLiteral? chars = none := by
      rw [← Option.not_isSome_iff_eq_none, Number.isSome_intLiteral?_iff]
      exact hinteger
    simp only [literal, if_neg hinteger, Number.ofLiteral?, hint]
    by_cases hdecimal : IsDecimalText chars
    · obtain ⟨d, hd, hrounded⟩ := rounded_eq hdecimal
      rw [if_pos hdecimal, hrounded, hd]
      rfl
    · have hd : Decimal.ofChars? (splitSign chars).2 = none := by
        rw [← Option.not_isSome_iff_eq_none, Number.isSome_float_iff]
        exact hdecimal
      rw [if_neg hdecimal, hd]
      rfl

-- No token is refused.
theorem atom_eq (token : String) : atom token = .ok (Lisplet.atom token) := by
  rw [atom]
  split
  · next tail htail =>
    rw [Lisplet.atom, htail]
    rfl
  · next hquote =>
    rw [literal_eq]
    by_cases htrue : token = "true"
    · subst htrue
      rfl
    by_cases hfalse : token = "false"
    · subst hfalse
      rfl
    rw [if_neg htrue, if_neg hfalse, atom_of_unquoted hquote htrue hfalse]
    cases Number.ofLiteral? token.toList <;> rfl

end Bare

end Lisplet
