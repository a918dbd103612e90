import Lisplet.Proofs.Binary64.Rounding
import Mathlib.Data.Nat.Dist

namespace Lisplet.Binary64

-- No magnitude is nearer to num/den units, and another one that is as near has an odd significand.
-- The significand is even exactly if the rank is. Infinity takes part as 2^1024, the first
-- magnitude that is too large.
def IsNearest (num den : Nat) (rank : Rank) : Prop :=
  ∀ other : Rank, other ≠ rank →
    Nat.dist num (units rank.val * den) < Nat.dist num (units other.val * den) ∨
      Nat.dist num (units rank.val * den) = Nat.dist num (units other.val * den) ∧
        rank.val % 2 = 0

section

variable {num den : Nat}

theorem val_le_infinityRank (rank : Rank) : rank.val ≤ infinityRank := by
  have h := rank.isLt
  omega

theorem nearestRank_above (hden : 0 < den) {rank : Nat} (hval : rank = (nearestRank num den).val)
    (hfinite : rank < infinityRank) :
    2 * num < (units rank + units (rank + 1)) * den ∨
      2 * num = (units rank + units (rank + 1)) * den ∧ rank % 2 = 0 := by
  obtain ⟨shift, significand, h, hrank⟩ := exists_isSignificand num den hden
  rw [hrank, val_clampRank] at hval
  obtain rfl : rank = shift * binadeSize + significand := by omega
  exact h.rank_above hden

theorem nearestRank_below (hden : 0 < den) {rank : Nat}
    (hsucc : rank + 1 = (nearestRank num den).val) :
    (units rank + units (rank + 1)) * den < 2 * num ∨
      (units rank + units (rank + 1)) * den = 2 * num ∧ (rank + 1) % 2 = 0 := by
  obtain ⟨shift, significand, h, hrank⟩ := exists_isSignificand num den hden
  rw [hrank, val_clampRank] at hsucc
  obtain ⟨below, hbelow⟩ : ∃ below, below + 1 = shift * binadeSize + significand :=
    ⟨shift * binadeSize + significand - 1, by omega⟩
  have hhalf := h.rank_below hden hbelow
  rcases Nat.lt_or_eq_of_le (show rank ≤ below by omega) with hlt | rfl
  · -- Infinity is as far up as the result can go.
    have hless : units rank + units (rank + 1) < units below + units (below + 1) :=
      Nat.add_lt_add (strictMono_units hlt) (strictMono_units (Nat.succ_lt_succ hlt))
    have hmul := Nat.mul_lt_mul_of_pos_right hless hden
    exact .inl (by omega)
  · exact hhalf

theorem isNearest_nearestRank (num : Nat) (hden : 0 < den) :
    IsNearest num den (nearestRank num den) := by
  obtain ⟨rank, hrank⟩ : ∃ rank, nearestRank num den = rank := ⟨_, rfl⟩
  rw [hrank]
  intro other hother
  have hscale {a b : Nat} (h : a ≤ b) : units a * den ≤ units b * den :=
    Nat.mul_le_mul_right den (strictMono_units.monotone h)
  have hstrict {a b : Nat} (h : a < b) : units a * den < units b * den :=
    Nat.mul_lt_mul_of_pos_right (strictMono_units h) hden
  rcases Nat.lt_or_gt_of_ne (Fin.val_ne_of_ne hother) with hlt | hgt
  · obtain ⟨below, hbelow⟩ : ∃ below, below + 1 = rank.val := ⟨rank.val - 1, by omega⟩
    have hhalf := nearestRank_below hden (hbelow.trans (congrArg Fin.val hrank.symm))
    have hfar := hscale (show other.val ≤ below by omega)
    have hnear := hstrict (show below < rank.val by omega)
    rw [hbelow, Nat.add_mul] at hhalf
    simp only [Nat.dist]
    omega
  · have hfinite : rank.val < infinityRank := by omega
    have hhalf := nearestRank_above hden (congrArg Fin.val hrank).symm hfinite
    have hfar := hscale (show rank.val + 1 ≤ other.val by omega)
    have hnear := hstrict (Nat.lt_add_one rank.val)
    rw [Nat.add_mul] at hhalf
    simp only [Nat.dist]
    omega

-- Of two magnitudes that are equally near only one is even, for they are neighbours.
theorem IsNearest.not_lt {rank other : Rank} (hden : 0 < den) (hrank : IsNearest num den rank)
    (hother : IsNearest num den other) : ¬rank < other := by
  intro hlt
  have hval : rank.val < other.val := hlt
  have hnear := hrank other (Fin.ne_of_gt hlt)
  have hnear' := hother rank (Fin.ne_of_lt hlt)
  let next : Rank := ⟨rank.val + 1, Nat.lt_of_le_of_lt hval other.isLt⟩
  have hnext := hrank next (Fin.ne_of_gt (Nat.lt_add_one rank.val))
  have hbetween : units rank.val * den < units next.val * den :=
    Nat.mul_lt_mul_of_pos_right (strictMono_units (Nat.lt_add_one rank.val)) hden
  have hne : rank.val + 1 ≠ other.val := by omega
  have hbeyond : units next.val * den < units other.val * den :=
    Nat.mul_lt_mul_of_pos_right (strictMono_units (by simp only [next]; omega)) hden
  simp only [Nat.dist] at *
  omega

theorem IsNearest.unique {rank other : Rank} (hden : 0 < den) (hrank : IsNearest num den rank)
    (hother : IsNearest num den other) : rank = other :=
  Fin.le_antisymm (Fin.not_lt.mp (hother.not_lt hden hrank))
    (Fin.not_lt.mp (hrank.not_lt hden hother))

-- A magnitude is its own rounding.
theorem nearestRank_units_mul (rank : Rank) (hden : 0 < den) :
    nearestRank (units rank.val * den) den = rank := by
  refine (isNearest_nearestRank _ hden).unique hden fun other hother => .inl ?_
  have hne : units rank.val * den ≠ units other.val * den := fun heq =>
    hother (Fin.ext (strictMono_units.injective (Nat.eq_of_mul_eq_mul_right hden heq))).symm
  simp only [Nat.dist]
  omega

theorem nearestRank_units (rank : Rank) : nearestRank (units rank.val) 1 = rank := by
  simpa using nearestRank_units_mul rank Nat.one_pos

-- The half between a magnitude and the next lies further up the larger the magnitude is.
theorem half_lt {rank other : Nat} (hden : 0 < den) (h : rank < other) :
    (units rank + units (rank + 1)) * den < (units other + units (other + 1)) * den :=
  Nat.mul_lt_mul_of_pos_right
    (Nat.add_lt_add (strictMono_units h) (strictMono_units (Nat.succ_lt_succ h))) hden

-- Larger values do not round to smaller magnitudes.
theorem nearestRank_mono (hden : 0 < den) {larger : Nat} (h : num ≤ larger) :
    nearestRank num den ≤ nearestRank larger den := by
  by_contra hgt
  have hfall : (nearestRank larger den).val < (nearestRank num den).val := Nat.lt_of_not_le hgt
  obtain ⟨rank, hrank⟩ : ∃ rank, rank = (nearestRank larger den).val := ⟨_, rfl⟩
  have hval : rank < (nearestRank num den).val := by rwa [hrank]
  have hfinite : rank < infinityRank := Nat.lt_of_lt_of_le hval (val_le_infinityRank _)
  obtain ⟨below, hbelow⟩ : ∃ below, below + 1 = (nearestRank num den).val :=
    ⟨(nearestRank num den).val - 1, Nat.sub_add_cancel (Nat.zero_lt_of_lt hval)⟩
  have hhigh := nearestRank_above hden hrank hfinite
  have hlow := nearestRank_below hden hbelow
  rcases Nat.lt_or_eq_of_le (show rank ≤ below by omega) with hlt | rfl
  · have := half_lt hden hlt
    omega
  · omega

-- The half before infinity, which lies at 2^2098 - 2^2044 units, belongs to infinity: its other
-- neighbour is odd.
theorem exists_last : ∃ last, last + 1 = infinityRank ∧ last % 2 = 1 ∧
    units last + units (last + 1) = 2 * ((2 ^ 54 - 1) * 2 ^ 2044) := by
  have hnext : 2045 * binadeSize + (2 ^ 53 - 1) + 1 = 2045 * binadeSize + 2 ^ 53 := rfl
  refine ⟨2045 * binadeSize + (2 ^ 53 - 1), by decide +kernel, by decide, ?_⟩
  rw [hnext, units_of_significand (.inr (by decide)) le_rfl,
    units_of_significand (.inr (by decide)) (by decide), ← Nat.add_mul]
  obtain ⟨low, hlow⟩ : ∃ low, low = 2 ^ 2044 := ⟨_, rfl⟩
  rw [Nat.pow_succ 2 2044, ← hlow]
  omega

theorem nearestRank_lt_infinityRank_iff (num : Nat) (hden : 0 < den) :
    (nearestRank num den).val < infinityRank ↔ num < (2 ^ 54 - 1) * 2 ^ 2044 * den := by
  obtain ⟨rank, hrank⟩ : ∃ rank, rank = (nearestRank num den).val := ⟨_, rfl⟩
  obtain ⟨last, hlast, hodd, hhalf⟩ := exists_last
  obtain ⟨bound, hbound⟩ : ∃ bound, (2 ^ 54 - 1) * 2 ^ 2044 = bound := ⟨_, rfl⟩
  rw [hbound] at hhalf ⊢
  have hmul : (units last + units (last + 1)) * den = 2 * (bound * den) := by
    rw [hhalf, Nat.mul_assoc]
  rw [← hrank]
  constructor
  · intro hfinite
    have hhigh := nearestRank_above hden hrank hfinite
    rcases Nat.lt_or_eq_of_le (show rank ≤ last by omega) with hlt | rfl
    · have := half_lt hden hlt
      omega
    · omega
  · intro hlt
    by_contra hge
    have := (nearestRank num den).isLt
    have hlow := nearestRank_below hden (show last + 1 = (nearestRank num den).val by omega)
    omega

end

theorem halfway_to_infinity : (2 ^ 54 - 1) * 2 ^ 2044 = (2 ^ 1024 - 2 ^ 970) * unitScale := by
  have h : 2 ^ 2044 = 2 ^ 970 * unitScale := by rw [unitScale_eq, ← Nat.pow_add]
  rw [h, ← Nat.mul_assoc, Nat.sub_mul, ← Nat.pow_add, Nat.one_mul]

theorem nearestRank_int_lt_infinityRank_iff (n : Nat) :
    (nearestRank (n * unitScale) 1).val < infinityRank ↔ n < 2 ^ 1024 - 2 ^ 970 := by
  rw [nearestRank_lt_infinityRank_iff _ Nat.one_pos, Nat.mul_one, halfway_to_infinity,
    Nat.mul_lt_mul_right unitScale_pos]

-- An integer widens if it is less than half a unit in the last place past the largest double.
theorem ofInt?_isSome_iff (n : Int) : (ofInt? n).isSome ↔ n.natAbs < 2 ^ 1024 - 2 ^ 970 := by
  rw [ofInt?, ← nearestRank_int_lt_infinityRank_iff]
  simp [isFinite]

theorem eq_clampRank_of_not_finite {rank : Rank} (h : ¬rank.val < infinityRank) :
    rank = clampRank infinityRank := by
  have hle := val_le_infinityRank rank
  apply Fin.ext
  rw [val_clampRank]
  omega

-- A double that is a number is finite or infinite.
theorem isFinite_or_eq_infinity (negative : Bool) (rank : Rank) :
    (signed negative rank).isFinite ∨ signed negative rank = infinity negative := by
  by_cases hrank : rank.val < infinityRank
  · exact .inl (decide_eq_true hrank)
  · exact .inr (congrArg (signed negative) (eq_clampRank_of_not_finite hrank))

theorem signed_eq_infinity_iff {s negative : Bool} {rank : Rank} :
    signed s rank = infinity negative ↔ s = negative ∧ ¬rank.val < infinityRank := by
  rw [infinity, signed.injEq]
  refine and_congr_right fun _ => ⟨?_, eq_clampRank_of_not_finite⟩
  rintro rfl
  rw [val_clampRank]
  omega

theorem units_lt_of_finite {rank : Rank} (h : rank.val < infinityRank) :
    units rank.val < (2 ^ 1024 - 2 ^ 970) * unitScale := by
  rw [← nearestRank_units rank, nearestRank_lt_infinityRank_iff _ Nat.one_pos, Nat.mul_one,
    halfway_to_infinity] at h
  exact h

end Lisplet.Binary64
