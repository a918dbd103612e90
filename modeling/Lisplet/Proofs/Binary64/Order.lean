import Lisplet.Proofs.Binary64.Nearest

namespace Lisplet.Binary64

section

variable {holds : Int → Int → Bool}

theorem compareBy_trans (htrans : ∀ a b c, holds a b → holds b c → holds a c) {x y z : Binary64}
    (hxy : compareBy holds x y) (hyz : compareBy holds y z) : compareBy holds x z := by
  cases x with
  | nan => cases hxy
  | signed s a =>
    cases y with
    | nan => cases hxy
    | signed t b =>
      cases z with
      | nan => cases hyz
      | signed u c => exact htrans _ _ _ hxy hyz

theorem compareBy_comm (hsymm : ∀ a b, holds a b = holds b a) (x y : Binary64) :
    compareBy holds x y = compareBy holds y x := by
  cases x with
  | nan => cases y <;> rfl
  | signed s a =>
    cases y with
    | nan => rfl
    | signed t b => exact hsymm _ _

end

variable {x y z : Binary64}

theorem lt_trans (hxy : x.lt y) (hyz : y.lt z) : x.lt z :=
  compareBy_trans (by simp only [decide_eq_true_eq]; omega) hxy hyz

theorem le_trans (hxy : x.le y) (hyz : y.le z) : x.le z :=
  compareBy_trans (by simp only [decide_eq_true_eq]; omega) hxy hyz

theorem eq_trans (hxy : x.eq y) (hyz : y.eq z) : x.eq z :=
  compareBy_trans (by simp only [beq_iff_eq]; omega) hxy hyz

theorem eq_comm (x y : Binary64) : x.eq y = y.eq x :=
  compareBy_comm (fun _ _ => Bool.beq_comm) x y

-- Only NaN differs from itself.
theorem eq_self_iff (x : Binary64) : x.eq x ↔ x ≠ .nan := by
  cases x with
  | nan => decide
  | signed s a => simp [eq, compareBy]

theorem hash_eq_of_eq (h : x.eq y) : x.hash = y.hash := by
  cases x with
  | nan => cases h
  | signed s a =>
    cases y with
    | nan => cases h
    | signed t b => exact congrArg Hashable.hash (eq_of_beq h)

theorem natAbs_signedUnits (negative : Bool) (rank : Rank) :
    (signedUnits negative rank).natAbs = units rank.val := by
  cases negative <;> simp [signedUnits]

-- Doubles are ordered like their values, with infinity as the first value that is too large.
theorem position_lt_iff {s t : Bool} {a b : Rank} :
    position s a < position t b ↔ signedUnits s a < signedUnits t b := by
  have hlt := strictMono_units.lt_iff_lt (a := a.val) (b := b.val)
  have hgt := strictMono_units.lt_iff_lt (a := b.val) (b := a.val)
  have ha : 0 < units a.val ↔ 0 < a.val := strictMono_units.lt_iff_lt (a := 0) (b := a.val)
  have hb : 0 < units b.val ↔ 0 < b.val := strictMono_units.lt_iff_lt (a := 0) (b := b.val)
  cases s <;> cases t <;>
    simp only [position, signedUnits, Bool.false_eq_true, if_false, if_true] <;> omega

theorem lt_iff {s t : Bool} {a b : Rank} :
    (signed s a).lt (signed t b) ↔ signedUnits s a < signedUnits t b := by
  rw [← position_lt_iff]
  exact decide_eq_true_iff

theorem le_iff {s t : Bool} {a b : Rank} :
    (signed s a).le (signed t b) ↔ signedUnits s a ≤ signedUnits t b := by
  rw [← Int.not_lt, ← position_lt_iff, Int.not_lt]
  exact decide_eq_true_iff

theorem eq_iff {s t : Bool} {a b : Rank} :
    (signed s a).eq (signed t b) ↔ signedUnits s a = signedUnits t b := by
  rw [Int.le_antisymm_iff, ← le_iff, ← le_iff, eq, le, le]
  simp only [compareBy, beq_iff_eq, decide_eq_true_eq]
  exact Int.le_antisymm_iff

-- Doubling moves a magnitude by one binade, or within the first one.
theorem exists_units_double (rank : Nat) : ∃ double, units double = 2 * units rank := by
  obtain ⟨shift, significand, rfl, hnormal, hlt⟩ := exists_significand rank
  rw [units_of_significand hnormal hlt.le]
  by_cases hlow : 2 ^ 52 ≤ significand
  · refine ⟨(shift + 1) * binadeSize + significand, ?_⟩
    rw [units_of_significand (.inr hlow) hlt.le, Nat.pow_succ, ← Nat.mul_assoc, Nat.mul_comm]
  · obtain rfl : shift = 0 := by omega
    refine ⟨0 * binadeSize + 2 * significand, ?_⟩
    rw [units_of_significand (.inl rfl) (by omega), Nat.mul_assoc]

theorem exists_units_mul_pow {n : Nat} (h : n ≤ 2 ^ 53) (k : Nat) :
    ∃ rank, units rank = n * 2 ^ k := by
  induction k with
  | zero =>
    refine ⟨0 * binadeSize + n, ?_⟩
    rw [units_of_significand (.inl rfl) h]
  | succ k ih =>
    obtain ⟨rank, hrank⟩ := ih
    obtain ⟨double, hdouble⟩ := exists_units_double rank
    refine ⟨double, ?_⟩
    rw [hdouble, hrank, Nat.pow_succ]
    ring

-- Integers of 53 bits are not rounded.
theorem units_nearestRank_int {n : Nat} (h : n ≤ 2 ^ 53) :
    units (nearestRank (n * unitScale) 1).val = n * unitScale := by
  obtain ⟨rank, hrank⟩ := exists_units_mul_pow h 1074
  rw [← unitScale_eq] at hrank
  have hbound : units rank < units infinityRank := by
    rw [hrank, units_infinityRank]
    exact Nat.mul_lt_mul_of_pos_right (Nat.lt_of_le_of_lt h (by decide +kernel)) unitScale_pos
  have hlt : rank < infinityRank := strictMono_units.lt_iff_lt.mp hbound
  have hnearest := nearestRank_units ⟨rank, Nat.lt_succ_of_lt hlt⟩
  rw [← hrank, hnearest]

-- The place of an integer on the number line after rounding, infinity included.
def roundedPosition (n : Int) : Int := position (n < 0) (nearestRank (n.natAbs * unitScale) 1)

theorem nearestRank_int_mono {m n : Nat} (h : m ≤ n) :
    (nearestRank (m * unitScale) 1).val ≤ (nearestRank (n * unitScale) 1).val :=
  nearestRank_mono Nat.one_pos (Nat.mul_le_mul_right unitScale h)

theorem nearestRank_int_lt {m n : Nat} (hn : n ≤ 2 ^ 53) (h : m < n) :
    (nearestRank (m * unitScale) 1).val < (nearestRank (n * unitScale) 1).val := by
  apply strictMono_units.lt_iff_lt.mp
  rw [units_nearestRank_int (h.le.trans hn), units_nearestRank_int hn]
  exact Nat.mul_lt_mul_of_pos_right h unitScale_pos

theorem roundedPosition_mono {m n : Int} (h : m ≤ n) : roundedPosition m ≤ roundedPosition n := by
  simp only [roundedPosition, position, decide_eq_true_eq]
  split <;> split
  · have := nearestRank_int_mono (show n.natAbs ≤ m.natAbs by omega)
    omega
  · omega
  · omega
  · have := nearestRank_int_mono (show m.natAbs ≤ n.natAbs by omega)
    omega

theorem roundedPosition_lt {m n : Int} (hm : m.natAbs ≤ 2 ^ 53) (hn : n.natAbs ≤ 2 ^ 53)
    (h : m < n) : roundedPosition m < roundedPosition n := by
  simp only [roundedPosition, position, decide_eq_true_eq]
  split <;> split
  · have := nearestRank_int_lt hm (show n.natAbs < m.natAbs by omega)
    omega
  · have := nearestRank_int_lt hm (show 0 < m.natAbs by omega)
    omega
  · omega
  · have := nearestRank_int_lt hn (show m.natAbs < n.natAbs by omega)
    omega

-- An integer that widens takes its place after rounding.
theorem compareBy_of_ofInt? {holds : Int → Int → Bool} {m n : Int} (hx : ofInt? m = some x)
    (hy : ofInt? n = some y) :
    compareBy holds x y = holds (roundedPosition m) (roundedPosition n) := by
  simp only [ofInt?, Option.ite_none_right_eq_some, Option.some.injEq] at hx hy
  rw [← hx.2, ← hy.2]
  rfl

theorem isZero_of_ofInt? {n : Int} (hx : ofInt? n = some x) : x.isZero ↔ n = 0 := by
  simp only [ofInt?, Option.ite_none_right_eq_some, Option.some.injEq] at hx
  rw [← hx.2]
  simp only [isZero, beq_iff_eq]
  constructor
  · intro hzero
    by_contra hne
    have hone := nearestRank_int_lt (show 1 ≤ 2 ^ 53 by decide) Nat.one_pos
    have := nearestRank_int_mono (show 1 ≤ n.natAbs by omega)
    omega
  · rintro rfl
    decide +kernel

end Lisplet.Binary64
