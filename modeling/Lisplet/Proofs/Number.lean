import Lisplet.Number
import Lisplet.Proofs.Binary64.Text

namespace Lisplet

-- The grammar of numbers. A sign and an exponent are optional, and a decimal has a digit before
-- or after its point.
def IsSign (chars : List Char) : Prop := chars = [] ∨ chars = ['+'] ∨ chars = ['-']

def IsDigits (chars : List Char) : Prop := chars ≠ [] ∧ ∀ c ∈ chars, c.isDigit

def IsIntegerText (chars : List Char) : Prop :=
  ∃ sign digits, chars = sign ++ digits ∧ IsSign sign ∧ IsDigits digits

def IsExponentText (chars : List Char) : Prop :=
  chars = [] ∨ ∃ mark sign digits, chars = mark :: (sign ++ digits) ∧ (mark = 'e' ∨ mark = 'E') ∧
    IsSign sign ∧ IsDigits digits

def IsMantissaText (chars : List Char) : Prop :=
  ∃ whole fraction, (∀ c ∈ whole, c.isDigit) ∧ (∀ c ∈ fraction, c.isDigit) ∧
    ¬(whole = [] ∧ fraction = []) ∧
    (chars = whole ++ '.' :: fraction ∨ chars = whole ∧ fraction = [])

def IsDecimalText (chars : List Char) : Prop :=
  ∃ sign mantissa exponent, chars = sign ++ (mantissa ++ exponent) ∧ IsSign sign ∧
    IsMantissaText mantissa ∧ IsExponentText exponent

-- A sign stands in front of anything that does not begin with another one.
theorem splitSign_append {sign rest : List Char} (hsign : IsSign sign)
    (hrest : ∀ c ∈ rest.head?, c ≠ '+' ∧ c ≠ '-') :
    splitSign (sign ++ rest) = (decide (sign = ['-']), rest) := by
  rcases hsign with rfl | rfl | rfl
  · simpa using splitSign_of_not_sign hrest
  · rfl
  · rfl

theorem splitSign_spec (chars : List Char) :
    ∃ sign, IsSign sign ∧ chars = sign ++ (splitSign chars).2 := by
  unfold splitSign
  split
  · exact ⟨['+'], .inr (.inl rfl), rfl⟩
  · exact ⟨['-'], .inr (.inr rfl), rfl⟩
  · exact ⟨[], .inl rfl, rfl⟩

theorem IsDigits.not_sign {chars : List Char} (h : IsDigits chars) (rest : List Char) :
    ∀ c ∈ (chars ++ rest).head?, c ≠ '+' ∧ c ≠ '-' := by
  obtain ⟨hne, hall⟩ := h
  obtain ⟨c, tail, rfl⟩ := List.exists_cons_of_ne_nil hne
  rintro _ ⟨⟩
  exact not_sign_of_isDigit (hall c (by simp))

namespace Decimal

theorem exponent?_isSome_iff (chars : List Char) :
    (exponent? chars).isSome ↔ IsExponentText chars := by
  cases chars with
  | nil => exact iff_of_true rfl (.inl rfl)
  | cons mark rest =>
    simp only [exponent?]
    constructor
    · intro h
      split at h
      · next hcond =>
        obtain ⟨hmark, hne, hall⟩ := hcond
        obtain ⟨sign, hsign, hrest⟩ := splitSign_spec rest
        exact .inr ⟨mark, sign, _, by rw [← hrest], hmark, hsign, hne, by simpa using hall⟩
      · cases h
    · rintro (h | ⟨mark', sign, digits, h, hmark, hsign, hdigits⟩)
      · cases h
      · cases h
        have hsplit := splitSign_append hsign (by simpa using hdigits.not_sign [])
        have hall : digits.all Char.isDigit := by simpa using hdigits.2
        simp [hsplit, hmark, hdigits.1, hall]

theorem IsExponentText.not_isDigit {chars : List Char} (h : IsExponentText chars) :
    ∀ c ∈ chars.head?, c.isDigit = false ∧ c ≠ '.' := by
  rcases h with rfl | ⟨mark, sign, digits, rfl, hmark, -, -⟩
  · simp
  · rintro _ ⟨⟩
    rcases hmark with rfl | rfl <;> simp [Char.isDigit]

theorem isSome_ofChars?_iff (chars : List Char) :
    (ofChars? chars).isSome ↔
      ∃ mantissa exponent, chars = mantissa ++ exponent ∧ IsMantissaText mantissa ∧
        IsExponentText exponent := by
  constructor
  · intro h
    obtain ⟨whole, rest, hwhole, htake, hdrop, hchars⟩ : ∃ whole rest,
        (∀ c ∈ whole, c.isDigit) ∧ chars.takeWhile Char.isDigit = whole ∧
        chars.dropWhile Char.isDigit = rest ∧ chars = whole ++ rest :=
      ⟨_, _, fun c hc => List.mem_takeWhile_imp hc, rfl, rfl, List.takeWhile_append_dropWhile.symm⟩
    simp only [ofChars?, htake, hdrop] at h
    split at h
    · next tail =>
      split at h
      · cases h
      · next hne =>
        rw [Option.isSome_map, exponent?_isSome_iff] at h
        refine ⟨whole ++ '.' :: tail.takeWhile Char.isDigit, _, ?_,
          ⟨whole, _, hwhole, fun c hc => List.mem_takeWhile_imp hc, hne, .inl rfl⟩, h⟩
        simp [hchars]
    · split at h
      · cases h
      · next hne =>
        rw [Option.isSome_map, exponent?_isSome_iff] at h
        exact ⟨whole, rest, hchars, ⟨whole, [], hwhole, by simp, hne, .inr ⟨rfl, rfl⟩⟩, h⟩
  · rintro ⟨_, exponent, rfl, hmantissa, hexponent⟩
    obtain ⟨whole, fraction, hwhole, hfraction, hne, rfl | ⟨rfl, rfl⟩⟩ := hmantissa
    · have hparse := ofChars?_point hne hwhole hfraction fun c hc =>
        (IsExponentText.not_isDigit hexponent c hc).1
      rw [List.append_assoc, List.cons_append, hparse, Option.isSome_map, exponent?_isSome_iff]
      exact hexponent
    · have hparse := ofChars?_whole (by simpa using hne) hwhole
        (IsExponentText.not_isDigit hexponent)
      rw [hparse, Option.isSome_map, exponent?_isSome_iff]
      exact hexponent

end Decimal

theorem IsMantissaText.not_sign {mantissa : List Char} (h : IsMantissaText mantissa)
    (rest : List Char) : ∀ c ∈ (mantissa ++ rest).head?, c ≠ '+' ∧ c ≠ '-' := by
  obtain ⟨whole, fraction, hwhole, -, hne, hchars⟩ := h
  cases whole with
  | nil =>
    rcases hchars with rfl | ⟨rfl, rfl⟩
    · simp
    · simp at hne
  | cons c tail =>
    have hc := not_sign_of_isDigit (hwhole c (by simp))
    rcases hchars with rfl | ⟨rfl, -⟩ <;> simpa using hc

-- An integer is a decimal with neither point nor exponent.
theorem IsIntegerText.isDecimalText {chars : List Char} (h : IsIntegerText chars) :
    IsDecimalText chars := by
  obtain ⟨sign, digits, rfl, hsign, hdigits⟩ := h
  exact ⟨sign, digits, [], by simp, hsign,
    ⟨digits, [], hdigits.2, by simp, by simp [hdigits.1], .inr ⟨rfl, rfl⟩⟩, .inl rfl⟩

namespace Number

theorem intLiteral?_spec {chars : List Char} {n : Int} {count : Nat}
    (h : intLiteral? chars = some (n, count)) : IsIntegerText chars := by
  simp only [intLiteral?] at h
  split at h
  · next hdigits =>
    obtain ⟨sign, hsign, hchars⟩ := splitSign_spec chars
    exact ⟨sign, _, hchars, hsign, hdigits.1, by simpa using hdigits.2⟩
  · cases h

theorem isSome_float_iff (chars : List Char) :
    (Decimal.ofChars? (splitSign chars).2).isSome ↔ IsDecimalText chars := by
  rw [Decimal.isSome_ofChars?_iff]
  constructor
  · rintro ⟨mantissa, exponent, hrest, hmantissa, hexponent⟩
    obtain ⟨sign, hsign, hchars⟩ := splitSign_spec chars
    exact ⟨sign, mantissa, exponent, by rw [← hrest, ← hchars], hsign, hmantissa, hexponent⟩
  · rintro ⟨sign, mantissa, exponent, rfl, hsign, hmantissa, hexponent⟩
    rw [splitSign_append hsign (hmantissa.not_sign exponent)]
    exact ⟨mantissa, exponent, rfl, hmantissa, hexponent⟩

-- The integer that a sign and digits stand for.
def literalValue (sign digits : List Char) : Int :=
  if sign = ['-'] then -(Nat.ofDigitChars 10 digits 0 : Int) else Nat.ofDigitChars 10 digits 0

theorem natAbs_literalValue (sign digits : List Char) :
    (literalValue sign digits).natAbs = Nat.ofDigitChars 10 digits 0 := by
  rw [literalValue]
  split
  · rw [Int.natAbs_neg, Int.natAbs_natCast]
  · rw [Int.natAbs_natCast]

theorem intLiteral?_append {sign digits : List Char} (hsign : IsSign sign)
    (hdigits : IsDigits digits) :
    intLiteral? (sign ++ digits) = some (literalValue sign digits, digits.length) := by
  have hsplit := splitSign_append hsign (by simpa using hdigits.not_sign [])
  have hall : digits ≠ [] ∧ digits.all Char.isDigit = true :=
    ⟨hdigits.1, List.all_eq_true.mpr hdigits.2⟩
  simp [intLiteral?, hsplit, hall.1, hall.2, literalValue]

theorem isSome_intLiteral?_iff (chars : List Char) :
    (intLiteral? chars).isSome ↔ IsIntegerText chars := by
  constructor
  · intro h
    obtain ⟨⟨n, count⟩, hint⟩ := Option.isSome_iff_exists.mp h
    exact intLiteral?_spec hint
  · rintro ⟨sign, digits, rfl, hsign, hdigits⟩
    rw [intLiteral?_append hsign hdigits]
    rfl

theorem ofChars?_digits {digits : List Char} (hdigits : IsDigits digits) :
    Decimal.ofChars? digits = some ⟨Nat.ofDigitChars 10 digits 0, 0⟩ := by
  have hend : ∀ c ∈ ([] : List Char).head?, c.isDigit = false ∧ c ≠ '.' := by simp
  have hparse := Decimal.ofChars?_whole hdigits.1 hdigits.2 hend
  rwa [List.append_nil] at hparse

-- An integer literal is exact up to the limits, and rounded beyond.
theorem ofLiteral?_append {sign digits : List Char} (hsign : IsSign sign)
    (hdigits : IsDigits digits) :
    ofLiteral? (sign ++ digits) = some
      (if digits.length ≤ digitLimit ∧ (literalValue sign digits).natAbs < 2 ^ 1024 - 2 ^ 970 then
        .int (literalValue sign digits)
      else .float (.signed (sign = ['-'])
        (Binary64.nearestRank ((literalValue sign digits).natAbs * Binary64.unitScale) 1))) := by
  have hsplit := splitSign_append hsign (by simpa using hdigits.not_sign [])
  rw [ofLiteral?, intLiteral?_append hsign hdigits, hsplit]
  dsimp only
  rw [ofChars?_digits hdigits, Option.map_some, Binary64.ofDecimal, Decimal.rank_natCast]
  simp only [Binary64.ofInt?_isSome_iff, natAbs_literalValue]
  split <;> rfl

-- Whatever text a number is read from, it is an integer that widens, or a rounded decimal.
theorem ofLiteral?_cases {chars : List Char} {n : Number} (h : ofLiteral? chars = some n) :
    (∃ k, n = .int k ∧ (Binary64.ofInt? k).isSome) ∨
      ∃ negative d, n = .float (Binary64.ofDecimal negative d) := by
  simp only [ofLiteral?] at h
  split at h
  · next k count hint =>
    split at h
    · next hfits => exact .inl ⟨k, (Option.some.inj h).symm, hfits.2⟩
    · obtain ⟨d, -, hn⟩ := Option.map_eq_some_iff.mp h
      exact .inr ⟨_, d, hn.symm⟩
  · obtain ⟨d, -, hn⟩ := Option.map_eq_some_iff.mp h
    exact .inr ⟨_, d, hn.symm⟩

-- A text is read as a number exactly if the grammar has it.
theorem isSome_ofLiteral?_iff (chars : List Char) :
    (ofLiteral? chars).isSome ↔ IsDecimalText chars := by
  have hfloat := isSome_float_iff chars
  simp only [ofLiteral?]
  split
  · next n count hint =>
    have hdecimal := (intLiteral?_spec hint).isDecimalText
    split
    · exact iff_of_true rfl hdecimal
    · rwa [Option.isSome_map]
  · rwa [Option.isSome_map]

theorem isNumeral_of_mem_integer {sign digits : List Char} (hsign : IsSign sign)
    (hdigits : IsDigits digits) : ∀ c ∈ sign ++ digits, IsNumeral c := by
  intro c hc
  rcases List.mem_append.mp hc with hc | hc
  · rcases hsign with rfl | rfl | rfl <;> simp_all [IsNumeral]
  · exact .inl (hdigits.2 c hc)

theorem isDigits_toDigits (n : Nat) : IsDigits (Nat.toDigits 10 n) :=
  ⟨Nat.toDigits_ne_nil, fun _ => isDigit_of_mem_toDigits⟩

theorem literalValue_toDigits (sign : List Char) (n : Nat) :
    literalValue sign (Nat.toDigits 10 n) = if sign = ['-'] then -(n : Int) else n := by
  simp [literalValue]

theorem printable_int_iff (n : Int) : (int n).printable ↔
    -(Nat.pow 10 digitLimit : Nat) < n ∧ n < (Nat.pow 10 digitLimit : Nat) := by
  rw [printable, decide_eq_true_iff]
  omega

theorem render_int (n : Int) : (int n).render = toString n := by
  cases n with
  | ofNat n => rfl
  | negSucc n =>
    rw [render, if_pos (Int.negSucc_lt_zero n)]
    rfl

theorem render_int_eq (n : Int) : ∃ sign digits, (int n).render.toList = sign ++ digits ∧
    IsSign sign ∧ IsDigits digits ∧ literalValue sign digits = n ∧
      digits = Nat.toDigits 10 n.natAbs := by
  have hdigits := isDigits_toDigits n.natAbs
  by_cases hneg : n < 0
  · refine ⟨['-'], _, ?_, .inr (.inr rfl), hdigits, ?_, rfl⟩
    · simp [render, hneg, Nat.toList_repr]
    · rw [literalValue_toDigits, if_pos rfl]
      omega
  · refine ⟨[], _, ?_, .inl rfl, hdigits, ?_, rfl⟩
    · simp [render, hneg, Nat.toList_repr]
    · rw [literalValue_toDigits, if_neg (by decide)]
      omega

-- The text of an integer reads back if the integer widens: it has at most 309 digits then.
theorem ofLiteral?_render_int_iff (n : Int) :
    ofLiteral? (int n).render.toList = some (int n) ↔ n.natAbs < 2 ^ 1024 - 2 ^ 970 := by
  obtain ⟨sign, digits, htext, hsign, hdigits, hvalue, hlength⟩ := render_int_eq n
  rw [htext, ofLiteral?_append hsign hdigits, hvalue, Option.some_inj]
  constructor
  · intro h
    split at h
    · next hfits => exact hfits.2
    · cases h
  · intro h
    have hcount : digits.length ≤ digitLimit := by
      rw [hlength, digitLimit, Nat.length_toDigits_le_iff (by decide) (by decide)]
      exact Nat.lt_trans h (show 2 ^ 1024 - 2 ^ 970 < 10 ^ 4300 by decide +kernel)
    rw [if_pos ⟨hcount, h⟩]

theorem ofLiteral?_render_int (n : Int) (h : n.natAbs < 2 ^ 1024 - 2 ^ 970) :
    ofLiteral? (int n).render.toList = some (int n) :=
  (ofLiteral?_render_int_iff n).mpr h

-- The text of a finite double reads back and is never taken for an integer.
theorem ofLiteral?_render_float (x : Binary64) (h : x.isFinite) :
    ofLiteral? (float x).render.toList = some (float x) := by
  cases x with
  | nan => simp [Binary64.isFinite] at h
  | signed negative rank =>
    obtain ⟨chars, d, hchars, hwritten, hvalue⟩ :=
      Binary64.ofDecimal_of_chars negative rank (by simpa [Binary64.isFinite] using h)
    obtain ⟨c, tail, hcons, hc⟩ := hwritten.isDigit_head
    obtain ⟨mark, hmark, hnot⟩ := hwritten.exists_not_isDigit
    have hsplit : splitSign ((if negative then ['-'] else []) ++ chars) = (negative, chars) := by
      cases negative with
      | true => rfl
      | false =>
        refine splitSign_of_not_sign ?_
        rw [hcons]
        rintro _ ⟨⟩
        exact not_sign_of_isDigit hc
    have hint : intLiteral? ((if negative then ['-'] else []) ++ chars) = none := by
      have hall : chars.all Char.isDigit = false :=
        List.all_eq_false.mpr ⟨mark, hmark, by simp [hnot]⟩
      simp [intLiteral?, hsplit, hall]
    simp [render, Binary64.render, hchars, ofLiteral?, hint, hsplit, hwritten.ofChars?, hvalue]

theorem isNumeral_of_mem_render_int (n : Int) : ∀ c ∈ (int n).render.toList, IsNumeral c := by
  obtain ⟨sign, digits, htext, hsign, hdigits, -⟩ := render_int_eq n
  rw [htext]
  exact isNumeral_of_mem_integer hsign hdigits

theorem isNumeral_of_mem_render_float (x : Binary64) (h : x.isFinite) :
    ∀ c ∈ (float x).render.toList, IsNumeral c := by
  cases x with
  | nan => simp [Binary64.isFinite] at h
  | signed negative rank =>
    obtain ⟨chars, d, hchars, hwritten, -⟩ :=
      Binary64.ofDecimal_of_chars negative rank (by simpa [Binary64.isFinite] using h)
    intro c hc
    simp only [render, Binary64.render, String.toList_ofList, hchars, List.mem_append] at hc
    rcases hc with hc | hc
    · exact .inr (by cases negative <;> simp_all)
    · exact hwritten.isNumeral c hc

end Number

end Lisplet
