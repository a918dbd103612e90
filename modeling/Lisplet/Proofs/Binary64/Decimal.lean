import Lisplet.Binary64.Decimal
import Lisplet.Proofs.Binary64.Nearest

namespace Lisplet.Decimal

open Binary64

theorem digitCount_le_iff (n k : Nat) (hk : 0 < k) : digitCount n ≤ k ↔ n < 10 ^ k :=
  Nat.length_toDigits_le_iff (by decide) hk

theorem digitCount_pos (n : Nat) : 0 < digitCount n := Nat.length_toDigits_pos

theorem lt_digitCount_iff (n k : Nat) (hn : 0 < n) : k < digitCount n ↔ 10 ^ k ≤ n := by
  rcases Nat.eq_zero_or_pos k with rfl | hk
  · exact iff_of_true (digitCount_pos n) hn
  · rw [← Nat.not_le, digitCount_le_iff n k hk, Nat.not_lt]

theorem digitCount_shift (n k : Nat) (hn : 0 < n) : digitCount (n * 10 ^ k) = digitCount n + k := by
  have hpos := digitCount_pos n
  have hpow : 0 < 10 ^ k := by positivity
  apply Nat.le_antisymm
  · rw [digitCount_le_iff _ _ (by omega), Nat.pow_add]
    exact Nat.mul_lt_mul_of_pos_right ((digitCount_le_iff n _ hpos).mp (Nat.le_refl _)) hpow
  · have hlow := (lt_digitCount_iff n (digitCount n - 1) hn).mp (by omega)
    have hshift := (lt_digitCount_iff (n * 10 ^ k) (digitCount n - 1 + k) (by positivity)).mpr
      (by rw [Nat.pow_add]; exact Nat.mul_le_mul_right _ hlow)
    omega

theorem rank_eq (d : Decimal) :
    d.rank = if d.digits = 0 then clampRank 0
      else if 310 < d.order then clampRank infinityRank
      else if d.order < -330 then clampRank 0
      else nearestRank (d.digits * 10 ^ d.exponent.toNat * unitScale)
        (10 ^ (-d.exponent).toNat) := rfl

theorem digits_exact (rank : Rank) : (exact rank).digits = units rank.val * 5 ^ 1074 := rfl

-- Zeros behind the digits and a smaller exponent make up for each other.
def shift (d : Decimal) (k : Nat) : Decimal := ⟨d.digits * 10 ^ k, d.exponent - k⟩

theorem order_shift (d : Decimal) (k : Nat) (hd : 0 < d.digits) : (d.shift k).order = d.order := by
  simp only [order, shift, digitCount_shift d.digits k hd, Nat.cast_add]
  omega

theorem nearestRank_shift (digits : Nat) (exponent : Int) (k : Nat) :
    nearestRank (digits * 10 ^ k * 10 ^ (exponent - k).toNat * unitScale)
        (10 ^ (-(exponent - k)).toNat) =
      nearestRank (digits * 10 ^ exponent.toNat * unitScale) (10 ^ (-exponent).toNat) := by
  apply nearestRank_congr (by positivity) (by positivity)
  have hexp : k + (exponent - k).toNat + (-exponent).toNat =
      exponent.toNat + (-(exponent - k)).toNat := by omega
  calc digits * 10 ^ k * 10 ^ (exponent - k).toNat * unitScale * 10 ^ (-exponent).toNat
      = digits * 10 ^ (k + (exponent - k).toNat + (-exponent).toNat) * unitScale := by ring
    _ = digits * 10 ^ exponent.toNat * unitScale * 10 ^ (-(exponent - k)).toNat := by
      rw [hexp]
      ring

theorem rank_shift (d : Decimal) (k : Nat) : (d.shift k).rank = d.rank := by
  by_cases hd : d.digits = 0
  · simp [rank_eq, shift, hd]
  · have hne : (d.shift k).digits ≠ 0 := by
      simp only [shift]
      positivity
    have hnear := nearestRank_shift d.digits d.exponent k
    simp only [rank_eq, hd, hne, if_false, order_shift d k (Nat.pos_of_ne_zero hd)]
    simp only [shift, hnear]

-- A whole number is rounded like the integer it is, even where its order spares that.
theorem rank_natCast (n : Nat) : (⟨n, 0⟩ : Decimal).rank = nearestRank (n * unitScale) 1 := by
  have horder : (⟨n, 0⟩ : Decimal).order = digitCount n := Int.zero_add _
  rw [rank_eq, horder]
  by_cases hzero : n = 0
  · rw [if_pos hzero, hzero, Nat.zero_mul]
    exact (nearestRank_units (clampRank 0)).symm
  rw [if_neg hzero]
  by_cases hlarge : (310 : Int) < digitCount n
  · have hn : 10 ^ 310 ≤ n :=
      (lt_digitCount_iff n 310 (Nat.pos_of_ne_zero hzero)).mp (Int.ofNat_lt.mp hlarge)
    rw [if_pos hlarge, ← eq_clampRank_of_not_finite]
    rw [nearestRank_int_lt_infinityRank_iff, Nat.not_lt]
    exact Nat.le_trans (by decide +kernel) hn
  · rw [if_neg hlarge, if_neg (by omega)]
    simp

-- Every candidate that the search accepts reads back.
theorem rank_nearestOn {num den : Nat} {rank : Rank} {exponent : Int} {d : Decimal}
    (h : nearestOn num den rank exponent = some d) : d.rank = rank := by
  simp only [nearestOn] at h
  split at h
  · next hbelow =>
    split at h
    · next habove =>
      cases h
      rcases roundDiv_eq_or (num * Nat.pow 10 (-exponent).toNat)
        (den * Nat.pow 10 exponent.toNat) with hr | hr
      · rw [hr, hbelow]
      · rw [hr, habove]
    · cases h
      exact hbelow
  · split at h
    · next habove =>
      cases h
      exact habove
    · cases h

theorem units_lt {rank : Nat} (h : rank < infinityRank) : units rank < 2 ^ 2098 := by
  calc units rank < units infinityRank := strictMono_units h
    _ = 2 ^ 2098 := by rw [units_infinityRank, unitScale_eq, ← Nat.pow_add]

-- The exact decimal has between 744 and 1384 digits, so its order lies within the bounds that
-- spare the powers of ten.
theorem rank_exact (rank : Rank) (h : rank.val < infinityRank) : (exact rank).rank = rank := by
  rcases Nat.eq_zero_or_pos rank.val with hzero | hpos
  · have hdigits : (exact rank).digits = 0 := by simp [digits_exact, hzero, units_eq]
    rw [rank_eq, if_pos hdigits, ← hzero, clampRank_val]
  · have hunits := units_pos hpos
    have hne : (exact rank).digits ≠ 0 := by
      rw [digits_exact]
      positivity
    have hlow : 743 < digitCount (exact rank).digits := by
      rw [lt_digitCount_iff _ _ (Nat.pos_of_ne_zero hne), digits_exact]
      exact Nat.le_trans (show 10 ^ 743 ≤ 5 ^ 1074 by decide +kernel)
        (Nat.le_mul_of_pos_left _ hunits)
    have hhigh : digitCount (exact rank).digits ≤ 1384 := by
      rw [digitCount_le_iff _ _ (by decide), digits_exact]
      exact Nat.lt_trans (Nat.mul_lt_mul_of_pos_right (units_lt h) (by positivity))
        (show 2 ^ 2098 * 5 ^ 1074 < 10 ^ 1384 by decide +kernel)
    have horder : (exact rank).order = -1074 + digitCount (exact rank).digits := rfl
    rw [rank_eq, if_neg hne, if_neg (by omega), if_neg (by omega)]
    calc nearestRank ((exact rank).digits * 10 ^ (-1074 : Int).toNat * unitScale)
          (10 ^ (- -1074 : Int).toNat)
        = nearestRank (units rank.val) 1 := by
          apply nearestRank_congr (by positivity) Nat.one_pos
          have hten : 5 ^ 1074 * unitScale = 10 ^ 1074 := by rw [unitScale_eq, ← Nat.mul_pow]
          have hexp : (-1074 : Int).toNat = 0 := rfl
          have hexp' : (- -1074 : Int).toNat = 1074 := rfl
          simp only [digits_exact, hexp, hexp', Nat.pow_zero, Nat.mul_one, Nat.mul_assoc, hten]
      _ = rank := nearestRank_units rank

-- The shortest decimal reads back, whether the search finds it or the exact value stands in.
theorem rank_shortest (rank : Rank) (h : rank.val < infinityRank) :
    (shortest rank).rank = rank := by
  simp only [shortest]
  cases hs : (List.range 17).findSome? fun (more : Nat) =>
      nearestOn (units rank.val) unitScale rank
        (leadExponent (units rank.val) unitScale - more) with
  | none => exact rank_exact rank h
  | some d =>
    obtain ⟨more, -, hd⟩ := List.exists_of_findSome?_eq_some hs
    exact rank_nearestOn hd

end Lisplet.Decimal
