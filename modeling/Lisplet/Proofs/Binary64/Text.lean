import Lisplet.Binary64.Text
import Lisplet.Proofs.Binary64.Decimal
import Lisplet.Proofs.Text.CharClass
import Mathlib.Data.List.TakeWhile

namespace Lisplet

theorem splitSign_of_not_sign {chars : List Char} (h : ∀ c ∈ chars.head?, c ≠ '+' ∧ c ≠ '-') :
    splitSign chars = (false, chars) := by
  cases chars with
  | nil => rfl
  | cons c rest =>
    obtain ⟨hplus, hminus⟩ := h c (by simp)
    unfold splitSign
    split <;> simp_all

theorem isDigit_of_mem_toDigits {n : Nat} {c : Char} (h : c ∈ Nat.toDigits 10 n) : c.isDigit :=
  Nat.isDigit_of_mem_toDigits (by decide) (by decide) h

namespace Decimal

open Binary64

-- An exponent reads back from its mark.
theorem exponent?_exponentMark (lead : Int) : exponent? (exponentMark lead) = some lead := by
  obtain ⟨digits, hdigits⟩ : ∃ digits, digits =
      List.replicate (2 - (Nat.toDigits 10 lead.natAbs).length) '0' ++
        Nat.toDigits 10 lead.natAbs := ⟨_, rfl⟩
  have hne : digits ≠ [] := by simp [hdigits, Nat.toDigits_ne_nil]
  have hall : digits.all Char.isDigit := by
    simp only [hdigits, List.all_eq_true, List.mem_append, List.mem_replicate]
    rintro c (⟨-, rfl⟩ | hc)
    · rfl
    · exact isDigit_of_mem_toDigits hc
  have hvalue : Nat.ofDigitChars 10 digits 0 = lead.natAbs := by
    rw [hdigits, Nat.ofDigitChars_append, Nat.ofDigitChars_replicate_zero, Nat.mul_zero,
      Nat.ofDigitChars_ten_toDigits]
  simp only [exponentMark, ← hdigits, exponent?]
  by_cases hneg : lead < 0
  · simp [hneg, splitSign, hne, hall, hvalue, abs_of_neg]
  · have habs : (lead.natAbs : Int) = lead := by omega
    simp [hneg, splitSign, hne, hall, hvalue, habs]

-- A decimal as it is written: digits around a point, or digits with an exponent.
inductive Written : List Char → Decimal → Prop
  | positional (whole fraction : List Char) (hne : whole ≠ []) (hwhole : ∀ c ∈ whole, c.isDigit)
      (hfraction : ∀ c ∈ fraction, c.isDigit) :
      Written (whole ++ '.' :: fraction)
        ⟨Nat.ofDigitChars 10 (whole ++ fraction) 0, -fraction.length⟩
  | scientific (whole fraction : List Char) (lead : Int) (hne : whole ≠ [])
      (hwhole : ∀ c ∈ whole, c.isDigit) (hfraction : ∀ c ∈ fraction, c.isDigit) :
      Written (whole ++ (if fraction = [] then [] else '.' :: fraction) ++ exponentMark lead)
        ⟨Nat.ofDigitChars 10 (whole ++ fraction) 0, lead - fraction.length⟩

theorem ofChars?_point {whole fraction rest : List Char} (hne : ¬(whole = [] ∧ fraction = []))
    (hwhole : ∀ c ∈ whole, c.isDigit) (hfraction : ∀ c ∈ fraction, c.isDigit)
    (hrest : ∀ c ∈ rest.head?, c.isDigit = false) :
    ofChars? (whole ++ '.' :: (fraction ++ rest)) = (exponent? rest).map fun exponent =>
      ⟨Nat.ofDigitChars 10 (whole ++ fraction) 0, exponent - fraction.length⟩ := by
  have hpoint : ∀ c ∈ ('.' :: (fraction ++ rest)).head?, c.isDigit = false := by
    simp [Char.isDigit]
  obtain ⟨htake, hdrop⟩ := takeWhile_append_rest hwhole hpoint
  obtain ⟨htake', hdrop'⟩ := takeWhile_append_rest hfraction hrest
  simp only [ofChars?, htake, hdrop, htake', hdrop', hne, if_false]

theorem ofChars?_whole {whole rest : List Char} (hne : whole ≠ [])
    (hwhole : ∀ c ∈ whole, c.isDigit) (hrest : ∀ c ∈ rest.head?, c.isDigit = false ∧ c ≠ '.') :
    ofChars? (whole ++ rest) = (exponent? rest).map fun exponent =>
      ⟨Nat.ofDigitChars 10 whole 0, exponent⟩ := by
  obtain ⟨htake, hdrop⟩ := takeWhile_append_rest hwhole fun c hc => (hrest c hc).1
  have hpoint : ∀ tail, rest ≠ '.' :: tail := by
    rintro tail rfl
    exact (hrest '.' (by simp)).2 rfl
  simp [ofChars?, htake, hdrop, hne]

namespace Written

theorem ofChars? {chars : List Char} {d : Decimal} (h : Written chars d) :
    Decimal.ofChars? chars = some d := by
  cases h with
  | positional whole fraction hne hwhole hfraction =>
    have hend : ∀ c ∈ ([] : List Char).head?, c.isDigit = false := by simp
    simpa [exponent?] using ofChars?_point (by simp [hne]) hwhole hfraction hend
  | scientific whole fraction lead hne hwhole hfraction =>
    have hmark : ∀ c ∈ (exponentMark lead).head?, c.isDigit = false ∧ c ≠ '.' := by
      simp [exponentMark, Char.isDigit]
    split
    · next hnil =>
      subst hnil
      simpa [exponent?_exponentMark] using ofChars?_whole hne hwhole hmark
    · have := ofChars?_point (by simp [hne]) hwhole hfraction fun c hc => (hmark c hc).1
      simpa [exponent?_exponentMark] using this

theorem isDigit_head {chars : List Char} {d : Decimal} (h : Written chars d) :
    ∃ c rest, chars = c :: rest ∧ c.isDigit := by
  cases h with
  | positional whole fraction hne hwhole hfraction =>
    obtain ⟨c, tail, rfl⟩ := List.exists_cons_of_ne_nil hne
    exact ⟨c, _, rfl, hwhole c (by simp)⟩
  | scientific whole fraction lead hne hwhole hfraction =>
    obtain ⟨c, tail, rfl⟩ := List.exists_cons_of_ne_nil hne
    exact ⟨c, _, rfl, hwhole c (by simp)⟩

-- The point or the mark tells it from an integer.
theorem exists_not_isDigit {chars : List Char} {d : Decimal} (h : Written chars d) :
    ∃ c ∈ chars, c.isDigit = false := by
  cases h with
  | positional whole fraction hne hwhole hfraction => exact ⟨'.', by simp, rfl⟩
  | scientific whole fraction lead hne hwhole hfraction =>
    exact ⟨'e', by simp [exponentMark], rfl⟩

theorem isNumeral {chars : List Char} {d : Decimal} (h : Written chars d) :
    ∀ c ∈ chars, IsNumeral c := by
  cases h with
  | positional whole fraction hne hwhole hfraction =>
    intro c hc
    simp only [List.mem_append, List.mem_cons] at hc
    rcases hc with hc | rfl | hc
    · exact .inl (hwhole c hc)
    · exact .inr (by simp)
    · exact .inl (hfraction c hc)
  | scientific whole fraction lead hne hwhole hfraction =>
    have hmark : ∀ c ∈ exponentMark lead, IsNumeral c := by
      intro c hc
      simp only [exponentMark, List.mem_cons, List.mem_append, List.mem_replicate] at hc
      rcases hc with rfl | rfl | ⟨-, rfl⟩ | hc
      · exact .inr (by simp)
      · exact .inr (by split <;> simp)
      · exact .inl rfl
      · exact .inl (isDigit_of_mem_toDigits hc)
    intro c hc
    simp only [List.mem_append] at hc
    rcases hc with (hc | hc) | hc
    · exact .inl (hwhole c hc)
    · split at hc
      · simp at hc
      · rcases List.mem_cons.mp hc with rfl | hc
        · exact .inr (by simp)
        · exact .inl (hfraction c hc)
    · exact hmark c hc

end Written

-- The digits of a number with the zeros behind them taken off.
theorem significant_spec (n : Nat) :
    (∀ c ∈ (significant n).1, c.isDigit) ∧
      n = Nat.ofDigitChars 10 (significant n).1 0 * 10 ^ (significant n).2 := by
  obtain ⟨reversed, hreversed⟩ : ∃ reversed, reversed = (Nat.toDigits 10 n).reverse := ⟨_, rfl⟩
  have hzeros : reversed.takeWhile (· == '0') =
      List.replicate (reversed.takeWhile (· == '0')).length '0' := by
    refine List.eq_replicate_iff.mpr ⟨rfl, fun c hc => ?_⟩
    simpa using List.mem_takeWhile_imp hc
  have hdigits : Nat.toDigits 10 n = (reversed.dropWhile (· == '0')).reverse ++
      List.replicate (reversed.takeWhile (· == '0')).length '0' := by
    have := congrArg List.reverse
      (List.takeWhile_append_dropWhile (p := (· == '0')) (l := reversed))
    rw [List.reverse_append, hzeros, List.reverse_replicate] at this
    rw [this, hreversed, List.reverse_reverse]
  simp only [significant, ← hreversed]
  constructor
  · intro c hc
    exact isDigit_of_mem_toDigits (n := n) (by rw [hdigits]; exact List.mem_append_left _ hc)
  · have hvalue := Nat.ofDigitChars_ten_toDigits (n := n)
    rw [hdigits, Nat.ofDigitChars_append, Nat.ofDigitChars_replicate_zero] at hvalue
    rw [Nat.mul_comm, hvalue]

theorem isDigit_of_mem_zeros {k : Nat} {c : Char} (h : c ∈ List.replicate k '0') : c.isDigit := by
  rw [List.eq_of_mem_replicate h]
  rfl

-- Whatever layout is chosen, it writes the significant digits in front of some zeros.
theorem exists_written_layout (d : Decimal) :
    ∃ written, Written d.layout written ∧ written.rank = d.rank := by
  obtain ⟨hdigits, hvalue⟩ := significant_spec d.digits
  obtain ⟨digits, zeros, hsignificant⟩ : ∃ digits zeros, significant d.digits = (digits, zeros) :=
    ⟨_, _, rfl⟩
  simp only [hsignificant] at hdigits hvalue
  by_cases hzero : d.digits = 0
  · have hlayout : d.layout = ['0'] ++ '.' :: ['0'] := by simp [layout, hzero]
    rw [hlayout]
    refine ⟨_, .positional ['0'] ['0'] (by simp) (by simp [Char.isDigit]) (by simp [Char.isDigit]),
      ?_⟩
    simp [rank, hzero, Nat.ofDigitChars_cons]
  have hne : digits ≠ [] := by
    rintro rfl
    simp [hzero] at hvalue
  have hlength := List.length_pos_of_ne_nil hne
  -- The same value without the zeros.
  have hrank : d.rank = (⟨Nat.ofDigitChars 10 digits 0, d.exponent + zeros⟩ : Decimal).rank := by
    rw [← rank_shift ⟨_, d.exponent + zeros⟩ zeros]
    simp [shift, ← hvalue]
  simp only [layout, hsignificant, hzero, if_false, hrank]
  split
  · have htake : digits.take 1 ≠ [] := by simp [hne]
    refine ⟨_, .scientific (digits.take 1) (digits.drop 1) _ htake
      (fun c hc => hdigits c (List.mem_of_mem_take hc))
      (fun c hc => hdigits c (List.mem_of_mem_drop hc)), ?_⟩
    rw [List.take_append_drop, List.length_drop]
    congr 2
    omega
  split
  · next hlead =>
    obtain ⟨lead, hlead'⟩ : ∃ lead, d.exponent + zeros + digits.length - 1 = lead := ⟨_, rfl⟩
    rw [hlead'] at hlead ⊢
    refine ⟨_, .positional ['0'] (List.replicate (-lead - 1).toNat '0' ++ digits) (by simp)
      (by simp [Char.isDigit]) ?_, ?_⟩
    · intro c hc
      rcases List.mem_append.mp hc with hc | hc
      · exact isDigit_of_mem_zeros hc
      · exact hdigits c hc
    · have hzeros :
        Nat.ofDigitChars 10 (['0'] ++ (List.replicate (-lead - 1).toNat '0' ++ digits)) 0 =
          Nat.ofDigitChars 10 digits 0 := by
        simp [Nat.ofDigitChars_cons, Nat.ofDigitChars_append]
      rw [hzeros]
      congr 2
      simp only [List.length_append, List.length_replicate]
      omega
  split
  · next hexponent =>
    obtain ⟨k, hk⟩ := Int.eq_ofNat_of_zero_le hexponent
    refine ⟨_, .positional (digits ++ List.replicate (d.exponent + zeros).toNat '0') ['0']
      (by simp [hne]) ?_ (by simp [Char.isDigit]), ?_⟩
    · intro c hc
      rcases List.mem_append.mp hc with hc | hc
      · exact hdigits c hc
      · exact isDigit_of_mem_zeros hc
    · rw [hk, ← rank_shift ⟨_, (k : Int)⟩ (k + 1)]
      congr 1
      simp [shift, Nat.ofDigitChars_append, Nat.ofDigitChars_cons, Nat.pow_succ]
      ring
  · next hlead hexponent =>
    refine ⟨_, .positional (digits.take _) (digits.drop _) ?_
      (fun c hc => hdigits c (List.mem_of_mem_take hc))
      (fun c hc => hdigits c (List.mem_of_mem_drop hc)), ?_⟩
    · simp only [ne_eq, List.take_eq_nil_iff, hne, or_false]
      omega
    · rw [List.take_append_drop, List.length_drop]
      congr 2
      omega

end Decimal

namespace Binary64

-- A finite number reads back from its text, the sign of a zero included.
theorem ofDecimal_of_chars (negative : Bool) (rank : Rank) (h : rank.val < infinityRank) :
    ∃ chars d, (signed negative rank).chars = (if negative then ['-'] else []) ++ chars ∧
      Decimal.Written chars d ∧ ofDecimal negative d = signed negative rank := by
  obtain ⟨d, hwritten, hrank⟩ := Decimal.exists_written_layout (Decimal.shortest rank)
  refine ⟨_, d, by simp [chars, Nat.ne_of_lt h], hwritten, ?_⟩
  rw [ofDecimal, hrank, Decimal.rank_shortest rank h]

end Binary64

end Lisplet
