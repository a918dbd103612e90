import Lisplet.Binary64.Basic
import Mathlib.Algebra.Ring.Nat
import Mathlib.Order.Monotone.Basic
import Mathlib.Tactic.Linarith
import Mathlib.Tactic.Positivity
import Mathlib.Tactic.Ring

namespace Lisplet.Binary64

theorem unitScale_eq : unitScale = 2 ^ 1074 := rfl

theorem unitScale_pos : 0 < unitScale := by
  rw [unitScale_eq]
  positivity

theorem units_eq (rank : Nat) :
    units rank = (rank - (rank / binadeSize - 1) * binadeSize) * 2 ^ (rank / binadeSize - 1) := rfl

theorem nearestRank_eq (num den : Nat) :
    nearestRank num den = clampRank ((Nat.log2 (num / den) - 52) * binadeSize +
      roundDiv num (den * 2 ^ (Nat.log2 (num / den) - 52))) := rfl

theorem val_clampRank (rank : Nat) : (clampRank rank).val = min rank infinityRank := rfl

theorem clampRank_val (rank : Rank) : clampRank rank.val = rank :=
  Fin.ext (Nat.min_eq_left (Nat.le_of_lt_succ rank.isLt))

-- Numerator and denominator may be scaled alike.
theorem roundDiv_scale (num den k : Nat) (hk : 0 < k) :
    roundDiv (num * k) (den * k) = roundDiv num den := by
  have hq : num * k / (den * k) = num / den := Nat.mul_div_mul_right num den hk
  have hr : 2 * (num * k % (den * k)) = 2 * (num % den) * k := by
    rw [Nat.mul_mod_mul_right, Nat.mul_assoc]
  simp only [roundDiv, hq, hr, Nat.mul_lt_mul_right hk]

-- The result is one of the two whole numbers around the quotient.
theorem roundDiv_eq_or (num den : Nat) :
    roundDiv num den = num / den ∨ roundDiv num den = num / den + 1 := by
  simp only [roundDiv]
  split
  · exact .inl rfl
  split
  · exact .inr rfl
  · omega

-- The quotient lies between the halves around the result, and on one of them only if the result is
-- even.
theorem roundDiv_halfway (num den : Nat) (hden : 0 < den) :
    (2 * num < 2 * (den * roundDiv num den) + den ∨
      2 * num = 2 * (den * roundDiv num den) + den ∧ roundDiv num den % 2 = 0) ∧
    (2 * (den * roundDiv num den) < 2 * num + den ∨
      2 * (den * roundDiv num den) = 2 * num + den ∧ roundDiv num den % 2 = 0) := by
  have hnum : den * (num / den) + num % den = num := Nat.div_add_mod num den
  have hmod : num % den < den := Nat.mod_lt num hden
  have hsucc : den * (num / den + 1) = den * (num / den) + den := Nat.mul_succ den (num / den)
  simp only [roundDiv]
  by_cases hlow : 2 * (num % den) < den
  · rw [if_pos hlow]
    omega
  rw [if_neg hlow]
  by_cases hhigh : den < 2 * (num % den)
  · rw [if_pos hhigh]
    omega
  rw [if_neg hhigh]
  rcases Nat.mod_two_eq_zero_or_one (num / den) with heven | hodd
  · rw [heven, Nat.add_zero]
    omega
  · rw [hodd]
    omega

theorem nearestRank_scale (num den k : Nat) (hk : 0 < k) :
    nearestRank (num * k) (den * k) = nearestRank num den := by
  have hden (shift : Nat) : den * k * 2 ^ shift = den * 2 ^ shift * k := by ring
  simp only [nearestRank_eq, Nat.mul_div_mul_right num den hk, hden, roundDiv_scale _ _ k hk]

-- The nearest magnitude depends on the value of the quotient only.
theorem nearestRank_congr {a b c d : Nat} (hb : 0 < b) (hd : 0 < d) (h : a * d = c * b) :
    nearestRank a b = nearestRank c d := by
  rw [← nearestRank_scale a b d hd, h, Nat.mul_comm b d, nearestRank_scale c d b hb]

-- A significand has 53 bits, unless its magnitude lies in the first binade. Significands of 2^53
-- stand for the next binade.
theorem units_of_significand {shift significand : Nat} (hnormal : shift = 0 ∨ 2 ^ 52 ≤ significand)
    (hle : significand ≤ 2 ^ 53) :
    units (shift * binadeSize + significand) = significand * 2 ^ shift := by
  have hsize : binadeSize = 2 ^ 52 := rfl
  rcases Nat.lt_or_eq_of_le hle with hlt | rfl
  · have hshift : (shift * binadeSize + significand) / binadeSize - 1 = shift := by
      rw [hsize]
      omega
    rw [units_eq, hshift, Nat.add_sub_cancel_left]
  · have hshift : (shift * binadeSize + 2 ^ 53) / binadeSize - 1 = shift + 1 := by
      rw [hsize]
      omega
    have hrest : shift * binadeSize + 2 ^ 53 - (shift + 1) * binadeSize = 2 ^ 52 := by
      rw [hsize]
      omega
    rw [units_eq, hshift, hrest, ← Nat.pow_add, ← Nat.pow_add, Nat.add_comm shift, ← Nat.add_assoc]

theorem exists_significand (rank : Nat) :
    ∃ shift significand, rank = shift * binadeSize + significand ∧
      (shift = 0 ∨ 2 ^ 52 ≤ significand) ∧ significand < 2 ^ 53 := by
  have hsize : binadeSize = 2 ^ 52 := rfl
  refine ⟨rank / binadeSize - 1, rank - (rank / binadeSize - 1) * binadeSize, ?_, ?_, ?_⟩ <;>
    rw [hsize] <;> omega

theorem strictMono_units : StrictMono units := by
  refine strictMono_nat_of_lt_succ fun rank => ?_
  obtain ⟨shift, significand, rfl, hnormal, hlt⟩ := exists_significand rank
  have hnext : shift = 0 ∨ 2 ^ 52 ≤ significand + 1 := by omega
  rw [Nat.add_assoc, units_of_significand hnormal hlt.le, units_of_significand hnext hlt]
  exact Nat.mul_lt_mul_of_pos_right (Nat.lt_succ_self significand) (Nat.two_pow_pos shift)

theorem units_zero : units 0 = 0 := rfl

-- Infinity stands in the place of the first magnitude that is too large.
theorem units_infinityRank : units infinityRank = 2 ^ 1024 * unitScale := by
  have hrank : infinityRank = 2045 * binadeSize + 2 ^ 53 := rfl
  rw [hrank, units_of_significand (.inr (by decide)) le_rfl, unitScale_eq, ← Nat.pow_add,
    ← Nat.pow_add]

theorem units_pos {rank : Nat} (h : 0 < rank) : 0 < units rank :=
  units_zero ▸ strictMono_units h

-- The shift of a rounding belongs to the binade that the value lies in.
theorem shift_spec (num den : Nat) (hden : 0 < den) :
    (Nat.log2 (num / den) - 52 = 0 ∨ den * 2 ^ (Nat.log2 (num / den) - 52) * 2 ^ 52 ≤ num) ∧
      num < den * 2 ^ (Nat.log2 (num / den) - 52) * 2 ^ 53 := by
  obtain ⟨shift, hshift⟩ : ∃ shift, Nat.log2 (num / den) - 52 = shift := ⟨_, rfl⟩
  rw [hshift, Nat.mul_assoc, Nat.mul_assoc, ← Nat.pow_add, ← Nat.pow_add, Nat.mul_comm den,
    Nat.mul_comm den, ← Nat.div_lt_iff_lt_mul hden, ← Nat.le_div_iff_mul_le hden]
  constructor
  · rcases Nat.eq_zero_or_pos shift with hzero | hpos
    · exact .inl hzero
    · have hne : num / den ≠ 0 := by
        intro hzero
        simp [hzero] at hshift
        omega
      rw [show shift + 52 = Nat.log2 (num / den) by omega]
      exact .inr (Nat.log2_self_le hne)
  · exact Nat.lt_of_lt_of_le Nat.lt_log2_self (Nat.pow_le_pow_right (by decide) (by omega))

-- Short of a whole number of steps, a value rounds to that number at most.
theorem rounded_le {num step significand bound : Nat} (hlt : num < step * bound)
    (hbelow : 2 * (step * significand) ≤ 2 * num + step) : significand ≤ bound := by
  by_contra hgt
  have hmul := Nat.mul_le_mul_left step (show bound + 1 ≤ significand by omega)
  rw [Nat.mul_add_one] at hmul
  omega

theorem le_rounded {num step significand bound : Nat} (hstep : 0 < step) (hle : step * bound ≤ num)
    (habove : 2 * num ≤ 2 * (step * significand) + step) : bound ≤ significand := by
  by_contra hgt
  have hmul := Nat.mul_le_mul_left step (show significand + 1 ≤ bound by omega)
  rw [Nat.mul_add_one] at hmul
  omega

-- A significand for num/den units. The value lies in the binade of the shift and between the halves
-- around the significand, and on one of them only if the significand is even.
structure IsSignificand (num den shift significand : Nat) : Prop where
  low : shift = 0 ∨ den * 2 ^ shift * 2 ^ 52 ≤ num
  high : num < den * 2 ^ shift * 2 ^ 53
  above : 2 * num < 2 * (den * 2 ^ shift * significand) + den * 2 ^ shift ∨
    2 * num = 2 * (den * 2 ^ shift * significand) + den * 2 ^ shift ∧ significand % 2 = 0
  below : 2 * (den * 2 ^ shift * significand) < 2 * num + den * 2 ^ shift ∨
    2 * (den * 2 ^ shift * significand) = 2 * num + den * 2 ^ shift ∧ significand % 2 = 0

theorem exists_isSignificand (num den : Nat) (hden : 0 < den) :
    ∃ shift significand, IsSignificand num den shift significand ∧
      nearestRank num den = clampRank (shift * binadeSize + significand) := by
  obtain ⟨hlow, hhigh⟩ := shift_spec num den hden
  obtain ⟨habove, hbelow⟩ := roundDiv_halfway num (den * 2 ^ (Nat.log2 (num / den) - 52))
    (Nat.mul_pos hden (Nat.two_pow_pos _))
  exact ⟨_, _, ⟨hlow, hhigh, habove, hbelow⟩, nearestRank_eq num den⟩

section

variable {num den shift significand : Nat}

theorem IsSignificand.le (h : IsSignificand num den shift significand) : significand ≤ 2 ^ 53 :=
  rounded_le h.high (h.below.elim Nat.le_of_lt fun hhalf => hhalf.1.le)

theorem IsSignificand.normal (h : IsSignificand num den shift significand) (hden : 0 < den) :
    shift = 0 ∨ 2 ^ 52 ≤ significand :=
  h.low.imp_right fun hlow => le_rounded (Nat.mul_pos hden (Nat.two_pow_pos shift)) hlow
    (h.above.elim Nat.le_of_lt fun hhalf => hhalf.1.le)

theorem even_rank_iff : (shift * binadeSize + significand) % 2 = 0 ↔ significand % 2 = 0 := by
  rw [show binadeSize = 2 ^ 52 from rfl]
  omega

theorem units_mul_den (hnormal : shift = 0 ∨ 2 ^ 52 ≤ significand) (hle : significand ≤ 2 ^ 53) :
    units (shift * binadeSize + significand) * den = den * 2 ^ shift * significand := by
  rw [units_of_significand hnormal hle]
  ring

-- Past 2^53 the halves are further apart, but no value of the binade comes near them.
theorem IsSignificand.rank_above (h : IsSignificand num den shift significand) (hden : 0 < den) :
    let rank := shift * binadeSize + significand
    2 * num < (units rank + units (rank + 1)) * den ∨
      2 * num = (units rank + units (rank + 1)) * den ∧ rank % 2 = 0 := by
  intro rank
  have hrank : units rank * den = den * 2 ^ shift * significand :=
    units_mul_den (h.normal hden) h.le
  have hsucc : rank + 1 = shift * binadeSize + (significand + 1) := Nat.add_assoc ..
  rw [even_rank_iff, Nat.add_mul, hrank]
  by_cases hcarry : significand = 2 ^ 53
  · have hnext : units rank * den < units (rank + 1) * den :=
      Nat.mul_lt_mul_of_pos_right (strictMono_units (Nat.lt_add_one rank)) hden
    have hhigh := h.high
    rw [← hcarry] at hhigh
    rw [hrank] at hnext
    exact .inl (by omega)
  · have hle : significand + 1 ≤ 2 ^ 53 := Nat.succ_le_of_lt (Nat.lt_of_le_of_ne h.le hcarry)
    have hnormal : shift = 0 ∨ 2 ^ 52 ≤ significand + 1 :=
      (h.normal hden).imp_right fun hle => hle.trans (Nat.le_succ _)
    rw [hsucc, units_mul_den hnormal hle, Nat.mul_add_one, ← Nat.add_assoc, ← Nat.two_mul]
    exact h.above

-- Below 2^52 the halves are closer together, but no value of the binade lies there.
theorem IsSignificand.rank_below (h : IsSignificand num den shift significand) (hden : 0 < den)
    {rank : Nat} (hsucc : rank + 1 = shift * binadeSize + significand) :
    (units rank + units (rank + 1)) * den < 2 * num ∨
      (units rank + units (rank + 1)) * den = 2 * num ∧ (rank + 1) % 2 = 0 := by
  have hrank : units (rank + 1) * den = den * 2 ^ shift * significand :=
    hsucc ▸ units_mul_den (h.normal hden) h.le
  rw [hsucc, even_rank_iff, ← hsucc, Nat.add_mul, hrank]
  by_cases hfirst : shift ≠ 0 ∧ significand = 2 ^ 52
  · have hbefore : units rank * den < units (rank + 1) * den :=
      Nat.mul_lt_mul_of_pos_right (strictMono_units (Nat.lt_add_one rank)) hden
    have hlow := h.low.resolve_left hfirst.1
    rw [← hfirst.2] at hlow
    rw [hrank] at hbefore
    exact .inl (by omega)
  · have hne : significand ≠ 0 := by
      rintro rfl
      rcases h.normal hden with rfl | hle
      · simp at hsucc
      · exact absurd hle (by decide)
    obtain ⟨before, rfl⟩ := Nat.exists_eq_add_one_of_ne_zero hne
    have hnormal : shift = 0 ∨ 2 ^ 52 ≤ before := by
      by_cases hzero : shift = 0
      · exact .inl hzero
      · have hle := (h.normal hden).resolve_left hzero
        exact .inr (Nat.le_of_lt_succ (Nat.lt_of_le_of_ne hle fun heq => hfirst ⟨hzero, heq.symm⟩))
    have hbefore : units rank * den = den * 2 ^ shift * before := by
      rw [Nat.succ.inj hsucc]
      exact units_mul_den hnormal (Nat.le_of_succ_le h.le)
    have hbelow := h.below
    rw [Nat.mul_add_one] at hbelow ⊢
    rw [hbefore]
    exact hbelow.imp (fun hlt => by omega) fun hhalf => ⟨by omega, hhalf.2⟩

end

end Lisplet.Binary64
