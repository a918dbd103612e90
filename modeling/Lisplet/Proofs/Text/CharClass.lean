import Lisplet.Token

namespace Lisplet

-- A run that ends before the rest begins is what `takeWhile` finds.
theorem takeWhile_append_rest {p : Char → Bool} {run rest : List Char} (hrun : ∀ c ∈ run, p c)
    (hrest : ∀ c ∈ rest.head?, p c = false) :
    (run ++ rest).takeWhile p = run ∧ (run ++ rest).dropWhile p = rest := by
  rw [List.takeWhile_append_of_pos hrun, List.dropWhile_append_of_pos hrun]
  cases rest with
  | nil => simp
  | cons c rest => simp [hrest c (by simp)]

theorem not_sign_of_isDigit {c : Char} (h : c.isDigit) : c ≠ '+' ∧ c ≠ '-' := by
  constructor <;> rintro rfl <;> simp [Char.isDigit] at h

-- Every character of a printed number is one of these.
def IsNumeral (c : Char) : Prop := c.isDigit ∨ c ∈ ['.', 'e', '+', '-']

theorem Token.isRunChar_eq_false_of_isBlank {c : Char} (h : isBlank c) : isRunChar c = false := by
  simp [isRunChar, h]

theorem Token.isMark_iff (c : Char) : isMark c ↔ c ∈ ['(', ')', '\x27', '\x60', ','] := by
  simp [isMark, or_assoc]

-- Numbers print in characters that no token but a run has.
theorem IsNumeral.isRunChar {c : Char} (h : IsNumeral c) : Token.isRunChar c := by
  rcases h with h | h
  · simp only [Char.isDigit, Bool.and_eq_true, decide_eq_true_eq, ge_iff_le,
      UInt32.le_iff_toNat_le] at h
    have hrange : 48 ≤ c.toNat ∧ c.toNat ≤ 57 := h
    have hblank : isBlank c = false := by
      simp [isBlank]
      omega
    have hne (d : Char) (hd : d.toNat < 48 ∨ 57 < d.toNat) : (c == d) = false := by
      rw [beq_eq_false_iff_ne]
      rintro rfl
      omega
    simp [Token.isRunChar, Token.isMark, hblank, hne]
  · simp only [List.mem_cons, List.not_mem_nil, or_false] at h
    rcases h with rfl | rfl | rfl | rfl <;> rfl

end Lisplet
