import Lisplet.Proofs.Bare.Atom
import Lisplet.Proofs.Expr.Part
import Lisplet.Proofs.Reader.Inherited
import Lisplet.Proofs.Reader.RoundTrip

namespace Lisplet

-- A sign and digits, which are always a single token.
def literalText (sign digits : List Char) : String := String.ofList (sign ++ digits)

-- What an integer literal is read as: the integer itself within both limits, and otherwise what it
-- rounds to, where the sign is kept even of zero.
structure LiteralLaw (sign digits : List Char) (n : Int) : Prop where
  exact_iff : atom (literalText sign digits) = .number (.int n) ↔
    digits.length ≤ Number.digitLimit ∧ n.natAbs < 2 ^ 1024 - 2 ^ 970
  rounded : ¬(digits.length ≤ Number.digitLimit ∧ n.natAbs < 2 ^ 1024 - 2 ^ 970) →
    ∃ rank, atom (literalText sign digits) = .number (.float (.signed (sign = ['-']) rank)) ∧
      Binary64.IsNearest (n.natAbs * Binary64.unitScale) 1 rank ∧
      ∀ negative, Binary64.signed (sign = ['-']) rank = .infinity negative ↔
        negative = decide (n < 0) ∧ 2 ^ 1024 - 2 ^ 970 ≤ n.natAbs

section

variable {sign digits : List Char}

theorem atom_literalText (hsign : IsSign sign) (hdigits : IsDigits digits) :
    atom (literalText sign digits) = .number
      (if digits.length ≤ Number.digitLimit ∧
          (Number.literalValue sign digits).natAbs < 2 ^ 1024 - 2 ^ 970 then
        .int (Number.literalValue sign digits)
      else .float (.signed (sign = ['-']) (Binary64.nearestRank
        ((Number.literalValue sign digits).natAbs * Binary64.unitScale) 1))) := by
  have hnumerals : ∀ c ∈ (literalText sign digits).toList, IsNumeral c := by
    simpa [literalText] using Number.isNumeral_of_mem_integer hsign hdigits
  rw [atom_of_numerals hnumerals, literalText, String.toList_ofList,
    Number.ofLiteral?_append hsign hdigits]

-- A value other than zero has the sign that is written.
theorem sign_eq_minus_iff (h : Number.literalValue sign digits ≠ 0) :
    sign = ['-'] ↔ Number.literalValue sign digits < 0 := by
  by_cases hminus : sign = ['-']
  · rw [Number.literalValue, if_pos hminus] at *
    exact iff_of_true hminus (by omega)
  · rw [Number.literalValue, if_neg hminus] at *
    exact iff_of_false hminus (by omega)

theorem literalLaw_of_digits (hsign : IsSign sign) (hdigits : IsDigits digits) :
    LiteralLaw sign digits (Number.literalValue sign digits) where
  exact_iff := by
    rw [atom_literalText hsign hdigits]
    split
    · next hfits => exact iff_of_true rfl hfits
    · next hlimits => exact iff_of_false (by simp) hlimits
  rounded hlimits := by
    refine ⟨_, ?_, Binary64.isNearest_nearestRank _ Nat.one_pos, fun negative => ?_⟩
    · rw [atom_literalText hsign hdigits, if_neg hlimits]
    rw [Binary64.signed_eq_infinity_iff, Binary64.nearestRank_int_lt_infinityRank_iff, Nat.not_lt]
    refine and_congr_left fun hlarge => ?_
    have hne : Number.literalValue sign digits ≠ 0 := by
      have hpos : 0 < 2 ^ 1024 - 2 ^ 970 := by decide +kernel
      omega
    rw [decide_eq_decide.mpr (sign_eq_minus_iff hne)]
    exact eq_comm

end

namespace Number

theorem isSome_widen?_of_ofLiteral? {chars : List Char} {n : Number}
    (h : ofLiteral? chars = some n) : n.widen?.isSome := by
  obtain ⟨k, rfl, hfits⟩ | ⟨negative, d, rfl⟩ := ofLiteral?_cases h
  · exact hfits
  · rfl

end Number

-- No number in it is too large for a double.
def Expr.Widens (e : Expr) : Prop := ∀ n, (number n).OccursIn e → n.widen?.isSome

theorem Expr.Widens.list {items : List Expr} (h : ∀ item ∈ items, item.Widens) :
    (list items).Widens := by
  intro n hn
  obtain hn | ⟨item, hmem, hitem⟩ := occursIn_list.mp hn
  · cases hn
  · exact h item hmem n hitem

theorem Expr.widens_of_leaf {e : Expr} (hlist : ∀ items, e ≠ .list items)
    (h : ∀ n, e = .number n → n.widen?.isSome) : e.Widens :=
  fun n hn => h n ((occursIn_atom hlist).mp hn).symm

theorem widens_atom (token : String) : (atom token).Widens := by
  rw [atom]
  split
  · exact Expr.widens_of_leaf (by simp) (by simp)
  split
  · exact Expr.widens_of_leaf (by simp) (by simp)
  split
  · exact Expr.widens_of_leaf (by simp) (by simp)
  split
  · next n hread =>
    refine Expr.widens_of_leaf (by simp) ?_
    rintro _ ⟨⟩
    exact Number.isSome_widen?_of_ofLiteral? hread
  · exact Expr.widens_of_leaf (by simp) (by simp)

namespace Reader

theorem inherited_widens (table : Shorthands) : Inherited table Expr.Widens where
  atom token _ _ _ _ := widens_atom token
  shorthand token keyword e _ he := by
    have hkeyword : (Expr.symbol keyword).Widens := Expr.widens_of_leaf (by simp) (by simp)
    exact Expr.Widens.list (by simpa using ⟨hkeyword, he⟩)
  list _ := Expr.Widens.list

theorem parseAll_of_spells {text : String} {e : Expr} (h : Spells text e) :
    parseAll .quotes text = .ok [e] := by
  have hlexed : Lexed text.toList [text.toList] := by
    simpa using h.lexed (show EndsRun [] by simp [EndsRun]) .nil
  rw [parseAll_eq_formsOf, hlexed.textItems]
  simp [formsOf_token, feed_spells h, complete, formsFrom, formsOf, Except.map]

theorem parseAll_render_int (n : Int) :
    parseAll .quotes (Number.int n).render = .ok [atom (Number.int n).render] := by
  obtain ⟨sign, digits, htext, -, hdigits, -⟩ := Number.render_int_eq n
  have hne : (Number.int n).render ≠ "" := by
    intro hempty
    simp [hempty, hdigits.1] at htext
  exact parseAll_of_spells
    (.of_run hne (fun c hc => (Number.isNumeral_of_mem_render_int n c hc).isRunChar) rfl)

theorem parseAll_render_int_iff (n : Int) :
    parseAll .quotes (Number.int n).render = .ok [.number (.int n)] ↔
      n.natAbs < 2 ^ 1024 - 2 ^ 970 := by
  rw [parseAll_render_int, atom_of_numerals (Number.isNumeral_of_mem_render_int n),
    ← Number.ofLiteral?_render_int_iff]
  cases Number.ofLiteral? (Number.int n).render.toList <;> simp

-- No token is refused, and an integer literal is exact up to the limits of the conversions. So
-- every number that is read widens, and an integer comes back from its text if it widens.
theorem literal_law :
    (∀ sign digits : List Char, IsSign sign → IsDigits digits →
      LiteralLaw sign digits (Number.literalValue sign digits)) ∧
    (∀ token : String, Bare.atom token = .ok (atom token)) ∧
    (∀ (table : Shorthands) (text : String) (forms : List Expr), parseAll table text = .ok forms →
      ∀ e ∈ forms, ∀ n, (Expr.number n).OccursIn e → n.widen?.isSome) ∧
    ∀ n : Int, (Number.int n).printable →
      (parseAll .quotes (Number.int n).render = .ok [.number (.int n)] ↔
        n.natAbs < 2 ^ 1024 - 2 ^ 970) :=
  ⟨fun _ _ => literalLaw_of_digits, Bare.atom_eq,
    fun table _ _ hforms => (inherited_widens table).parseAll hforms,
    fun n _ => parseAll_render_int_iff n⟩

-- The first integer that does not widen, and one whose zeros are too many.
theorem literal_law_at_limits :
    let edge : Nat := 2 ^ 1024 - 2 ^ 970
    atom "+007" = .number (.int 7) ∧ Bare.atom "+007" = .ok (.number (.int 7)) ∧
      atom (literalText ['-'] (Nat.toDigits 10 edge)) = .number (.float (.infinity true)) ∧
      atom (literalText ['-'] (List.replicate 4301 '0')) = .number (.float (.signed true 0)) ∧
      parseAll .quotes (Number.int (edge - 1)).render = .ok [.number (.int (edge - 1))] ∧
      (Number.int (edge - 1)).widen?.isSome ∧
      parseAll .quotes (Number.int edge).render ≠ .ok [.number (.int edge)] := by
  obtain ⟨hliteral, hbare, hwidens, hround⟩ := literal_law
  intro edge
  have hedge : edge = 2 ^ 1024 - 2 ^ 970 := rfl
  clear_value edge
  have hpositive : 0 < edge := by
    rw [hedge]
    decide +kernel
  have hprintable (n : Int) (h : n.natAbs ≤ edge) : (Number.int n).printable := by
    have hlimit : edge < 10 ^ Number.digitLimit := by
      rw [hedge]
      decide +kernel
    simp only [Number.printable, decide_eq_true_eq, Nat.pow_eq]
    omega
  have hseven : atom "+007" = .number (.int 7) := by
    have hdigits : IsDigits ['0', '0', '7'] := ⟨List.cons_ne_nil _ _, List.all_eq_true.mp rfl⟩
    exact (hliteral ['+'] _ (.inr (.inl rfl)) hdigits).exact_iff.mpr (by decide +kernel)
  have hlarge : atom (literalText ['-'] (Nat.toDigits 10 edge)) =
      .number (.float (.infinity true)) := by
    have hlaw := hliteral ['-'] _ (.inr (.inr rfl)) (Number.isDigits_toDigits edge)
    rw [Number.literalValue_toDigits, if_pos rfl] at hlaw
    obtain ⟨rank, hatom, -, hinfinite⟩ := hlaw.rounded (by omega)
    have hnegative : true = decide (-(edge : Int) < 0) := (decide_eq_true (by omega)).symm
    rw [hatom, (hinfinite true).mpr ⟨hnegative, by omega⟩]
  have hzeros : atom (literalText ['-'] (List.replicate 4301 '0')) =
      .number (.float (.signed true 0)) := by
    have hdigits : IsDigits (List.replicate 4301 '0') :=
      ⟨List.cons_ne_nil _ _, fun c hc => by rw [List.eq_of_mem_replicate hc]; rfl⟩
    have hvalue : Number.literalValue ['-'] (List.replicate 4301 '0') = 0 := by decide +kernel
    have hlaw := hliteral ['-'] _ (.inr (.inr rfl)) hdigits
    rw [hvalue] at hlaw
    have hlong : ¬(List.replicate 4301 '0').length ≤ Number.digitLimit := by
      rw [List.length_replicate]
      decide
    obtain ⟨rank, hatom, hnearest, -⟩ := hlaw.rounded fun h => hlong h.1
    have hzero : rank = 0 :=
      (hnearest.unique Nat.one_pos (Binary64.isNearest_nearestRank _ Nat.one_pos)).trans
        (by decide +kernel)
    rw [hatom, hzero, decide_eq_true rfl]
  have hlast : parseAll .quotes (Number.int (edge - 1)).render =
      .ok [.number (.int (edge - 1))] :=
    (hround _ (hprintable _ (by omega))).mpr (by omega)
  refine ⟨hseven, hseven ▸ hbare "+007", hlarge, hzeros, hlast,
    hwidens _ _ _ hlast _ List.mem_cons_self _ .whole, fun hread => ?_⟩
  have hless := (hround _ (hprintable _ (by omega))).mp hread
  omega

end Reader

end Lisplet
