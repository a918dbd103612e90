import Lisplet.Text.Utf8
import Mathlib.Tactic.Common

namespace Lisplet

-- A byte array is read from its front.
theorem bytesToList_eq (bytes : ByteArray) : bytes.toList = bytes.data.toList := by
  have hloop (i : Nat) (before : List UInt8) :
      ByteArray.toList.loop bytes i before = before.reverse ++ bytes.data.toList.drop i := by
    fun_induction ByteArray.toList.loop bytes i before with
    | case1 i before h ih =>
      have hi : i < bytes.data.toList.length := by simpa using h
      rw [ih, List.drop_eq_getElem_cons hi]
      simp [ByteArray.get!, h]
    | case2 i before h =>
      rw [List.drop_eq_nil_of_le (by simpa using Nat.le_of_not_lt h)]
      simp
  exact hloop 0 []

namespace Utf8

-- The bytes of the character with this number: from the second one on, six bits each.
def codeBytes (n : Nat) : List Nat :=
  if n < 0x80 then [n]
  else if n < 0x800 then [0xC0 + n / 64, 0x80 + n % 64]
  else if n < 0x10000 then [0xE0 + n / 4096, 0x80 + n / 64 % 64, 0x80 + n % 64]
  else [0xF0 + n / 262144, 0x80 + n / 4096 % 64, 0x80 + n / 64 % 64, 0x80 + n % 64]

theorem toNat_utf8EncodeChar (c : Char) :
    (String.utf8EncodeChar c).map UInt8.toNat = codeBytes c.toNat := by
  have hvalid : c.toNat < 0xD800 ∨ 0xDFFF < c.toNat ∧ c.toNat < 0x110000 := c.valid
  have hval : c.val.toNat = c.toNat := rfl
  simp only [String.utf8EncodeChar, codeBytes, hval]
  split_ifs <;> first
    | omega
    | simp only [List.map_cons, List.map_nil, UInt8.toNat_ofNat', List.cons.injEq, and_true]
      omega

theorem toUTF8_bytes (text : String) :
    text.toUTF8.toList.map UInt8.toNat = text.toList.flatMap fun c => codeBytes c.toNat := by
  have hbytes : text.toUTF8 = (text.toList.flatMap String.utf8EncodeChar).toByteArray :=
    String.utf8Encode_toList.symm
  rw [hbytes, bytesToList_eq, List.toList_data_toByteArray, List.map_flatMap]
  simp only [toNat_utf8EncodeChar]

theorem follow_of_le {length count : Nat} (h : length ≤ count) (value : Nat) (later : List Nat) :
    follow length value count later = .char (Char.ofNat value) length := by
  cases later <;> simp only [follow, if_pos h]

theorem follow_cons {length count : Nat} (h : count < length) (value n : Nat) (later : List Nat) :
    follow length value count ((0x80 + n % 64) :: later) =
      follow length (value * 64 + n % 64) (count + 1) later := by
  have hcontinues : continues (0x80 + n % 64) := by
    simp only [continues, Bool.and_eq_true, decide_eq_true_eq]
    omega
  rw [follow, if_neg (by omega), if_pos hcontinues, Nat.add_sub_cancel_left]

-- Where the first two bytes go together, the rest decides.
theorem step_of_fits {first length lead n : Nat} (hlength : announced? first = some length)
    (hmany : length ≠ 1) (hlead : leadBits length first = lead)
    (hfits : secondFits first (0x80 + n % 64)) (later : List Nat) :
    step first ((0x80 + n % 64) :: later) = follow length (lead * 64 + n % 64) 2 later := by
  rw [step, hlength]
  split
  · contradiction
  · exact absurd (Option.some.inj ‹_›) hmany
  · cases Option.some.inj ‹_›
    simp only [hfits, if_true, hlead, Nat.add_sub_cancel_left]

-- The bytes of a character give it back, whatever comes after them.
theorem step_codeBytes {n : Nat} (hvalid : n.isValidChar) (later : List Nat) :
    ∃ first rest, codeBytes n = first :: rest ∧
      step first (rest ++ later) = .char (Char.ofNat n) (rest.length + 1) := by
  rw [Nat.isValidChar] at hvalid
  rw [codeBytes]
  split_ifs with hone htwo hthree
  · have hlength : announced? n = some 1 := if_pos hone
    exact ⟨n, [], rfl, by simp only [step, hlength, List.length_nil]⟩
  · have hlength : announced? (0xC0 + n / 64) = some 2 := by
      rw [announced?, if_neg (by omega), if_neg (by omega), if_pos (by omega)]
    have hlead : leadBits 2 (0xC0 + n / 64) = n / 64 := Nat.add_sub_cancel_left _ _
    have hfits : secondFits (0xC0 + n / 64) (0x80 + n % 64) := by
      simp [secondFits]; omega
    have hvalue : n / 64 * 64 + n % 64 = n := by omega
    refine ⟨_, _, rfl, ?_⟩
    rw [List.cons_append, step_of_fits hlength (by decide) hlead hfits, follow_of_le (by decide),
      hvalue]
    rfl
  · have hlength : announced? (0xE0 + n / 4096) = some 3 := by
      rw [announced?, if_neg (by omega), if_neg (by omega), if_neg (by omega), if_pos (by omega)]
    have hlead : leadBits 3 (0xE0 + n / 4096) = n / 4096 := Nat.add_sub_cancel_left _ _
    have hfits : secondFits (0xE0 + n / 4096) (0x80 + n / 64 % 64) := by
      simp [secondFits]; omega
    have hvalue : (n / 4096 * 64 + n / 64 % 64) * 64 + n % 64 = n := by omega
    refine ⟨_, _, rfl, ?_⟩
    rw [List.cons_append, step_of_fits hlength (by decide) hlead hfits, List.cons_append,
      follow_cons (by decide), follow_of_le (by decide), hvalue]
    rfl
  · have hlength : announced? (0xF0 + n / 262144) = some 4 := by
      rw [announced?, if_neg (by omega), if_neg (by omega), if_neg (by omega),
        if_neg (by omega), if_pos (by omega)]
    have hlead : leadBits 4 (0xF0 + n / 262144) = n / 262144 := Nat.add_sub_cancel_left _ _
    have hfits : secondFits (0xF0 + n / 262144) (0x80 + n / 4096 % 64) := by
      simp [secondFits]; omega
    have hvalue : ((n / 262144 * 64 + n / 4096 % 64) * 64 + n / 64 % 64) * 64 + n % 64 = n := by
      omega
    refine ⟨_, _, rfl, ?_⟩
    rw [List.cons_append, step_of_fits hlength (by decide) hlead hfits, List.cons_append,
      follow_cons (by decide), List.cons_append, follow_cons (by decide), follow_of_le (by decide),
      hvalue]
    rfl

theorem decodeFrom_codeBytes (chars : List Char) (start : Nat) :
    decodeFrom start (chars.flatMap fun c => codeBytes c.toNat) = (chars, none) := by
  induction chars generalizing start with
  | nil => rw [List.flatMap_nil, decodeFrom]
  | cons c chars ih =>
    obtain ⟨first, rest, hbytes, hstep⟩ :=
      step_codeBytes (n := c.toNat) c.valid (chars.flatMap fun c => codeBytes c.toNat)
    rw [List.flatMap_cons, hbytes, List.cons_append, decodeFrom, hstep]
    simp only [Nat.add_sub_cancel, List.drop_left, ih, Char.ofNat_toNat]

-- What is stored of a text is the text.
theorem decode_toUTF8 (text : String) :
    decode (text.toUTF8.toList.map UInt8.toNat) = (text.toList, none) := by
  rw [toUTF8_bytes, decode, decodeFrom_codeBytes]

end Utf8

end Lisplet
