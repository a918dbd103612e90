import Lisplet.Proofs.Expr.Part
import Lisplet.Proofs.Reader.Inherited
import Lisplet.Proofs.Reader.RoundTrip

namespace Lisplet

open Token

theorem IsName.of_run {name : String} (hne : name ≠ "")
    (hrun : ∀ c ∈ name.toList, Token.isRunChar c) (htrue : name ≠ "true") (hfalse : name ≠ "false")
    (hread : Number.ofLiteral? name.toList = none) : IsName name := by
  have hdecimal : ¬IsDecimalText name.toList := by
    rw [← Number.isSome_ofLiteral?_iff, hread]
    simp
  exact ⟨hne, hrun, htrue, hfalse, fun h => hdecimal h.isDecimalText, hdecimal⟩

theorem isName_iff {name : String} :
    IsName name ↔ name ≠ "" ∧ name.toList.all Token.isRunChar ∧ name ≠ "true" ∧ name ≠ "false" ∧
      Number.ofLiteral? name.toList = none := by
  constructor
  · intro h
    have hread : ¬(Number.ofLiteral? name.toList).isSome := by
      rw [Number.isSome_ofLiteral?_iff]
      exact h.not_decimal
    exact ⟨h.ne_empty, List.all_eq_true.mpr h.isRunChar, h.ne_true, h.ne_false,
      Option.not_isSome_iff_eq_none.mp hread⟩
  · rintro ⟨hne, hrun, htrue, hfalse, hread⟩
    exact .of_run hne (List.all_eq_true.mp hrun) htrue hfalse hread

instance (name : String) : Decidable (IsName name) := decidable_of_iff _ isName_iff.symm

-- No literal is too large to be read: a large one is read as infinite.
def Expr.IsInfinite (e : Expr) : Prop := ∃ negative, e = .number (.float (.infinity negative))

-- What would be readable if it were not for the infinite numbers in it.
inductive Expr.Legible : Expr → Prop
  | readable (e : Expr) (h : e.Readable) : Legible e
  | infinite (e : Expr) (h : e.IsInfinite) : Legible e
  | list (items : List Expr) (h : ∀ item ∈ items, Legible item) : Legible (.list items)

namespace Expr

theorem Legible.printable {e : Expr} (h : e.Legible) : e.printable := by
  induction h with
  | readable e h => exact h.printable
  | infinite e h =>
    obtain ⟨negative, rfl⟩ := h
    rfl
  | list items _ ih => exact (printableItems_iff items).mpr ih

theorem Legible.of_occursIn {part whole : Expr} (h : whole.Legible) (hpart : part.OccursIn whole) :
    part.Legible := by
  induction hpart with
  | whole => exact h
  | item items item hmem _ ih =>
    refine ih ?_
    cases h with
    | readable _ hreadable =>
      cases hreadable with
      | list items hitems => exact .readable item (hitems item hmem)
    | infinite _ hinfinite =>
      obtain ⟨negative, heq⟩ := hinfinite
      cases heq
    | list items hitems => exact hitems item hmem

theorem Legible.readable_or {e : Expr} (h : e.Legible) :
    e.Readable ∨ ∃ x : Expr, x.IsInfinite ∧ x.OccursIn e := by
  induction h with
  | readable e h => exact .inl h
  | infinite e h => exact .inr ⟨e, h, .whole⟩
  | list items _ ih =>
    by_cases hall : ∀ item ∈ items, item.Readable
    · exact .inl (.list items hall)
    · push Not at hall
      obtain ⟨item, hmem, hitem⟩ := hall
      obtain ⟨x, hx, hin⟩ := (ih item hmem).resolve_left hitem
      exact .inr ⟨x, hx, .item items item hmem hin⟩

theorem legible_of_ofLiteral? {chars : List Char} {n : Number}
    (h : Number.ofLiteral? chars = some n) : (Expr.number n).Legible := by
  obtain ⟨k, rfl, hfits⟩ | ⟨negative, d, rfl⟩ := Number.ofLiteral?_cases h
  · exact .readable _ (.int k ((Binary64.ofInt?_isSome_iff k).mp hfits))
  · rw [Binary64.ofDecimal]
    rcases Binary64.isFinite_or_eq_infinity negative d.rank with hfinite | hinfinite
    · exact .readable _ (.float _ hfinite)
    · exact .infinite _ ⟨negative, by rw [hinfinite]⟩

theorem legible_atom_of_run {token : String} (hne : token ≠ "")
    (hrun : ∀ c ∈ token.toList, isRunChar c) : (atom token).Legible := by
  by_cases htrue : token = "true"
  · rw [htrue]
    exact .readable _ (.bool true)
  by_cases hfalse : token = "false"
  · rw [hfalse]
    exact .readable _ (.bool false)
  rw [atom_of_run hrun htrue hfalse]
  cases hread : Number.ofLiteral? token.toList with
  | some n => exact legible_of_ofLiteral? hread
  | none =>
    exact .readable _ (.symbol token (.of_run hne hrun htrue hfalse hread))

end Expr

namespace Shorthands

theorem isName_of_find?_quotes {token keyword : String}
    (h : quotes.find? token = some keyword) : IsName keyword := by
  have hmem : (token, keyword) ∈ quotes.entries := by
    obtain ⟨before, after, hsplit, -⟩ := List.lookup_eq_some_iff.mp h
    simp [hsplit]
  have hall : ∀ keyword ∈ quotes.entries.map Prod.snd, IsName keyword := by decide
  exact hall keyword (List.mem_map_of_mem hmem)

-- Every mark has a meaning, so none is read as an atom.
theorem find?_quotes_ne_none {c : Char} (h : isMark c) (hopen : c ≠ '(') (hclose : c ≠ ')') :
    quotes.find? (String.ofList [c]) ≠ none := by
  rw [isMark_iff] at h
  simp only [List.mem_cons, hopen, hclose, List.not_mem_nil, or_false, false_or] at h
  rcases h with rfl | rfl | rfl <;> decide

end Shorthands

namespace Reader

open Lisplet.Expr

theorem legible_atom {token : String} (htoken : IsToken token.toList) (hopen : token ≠ "(")
    (hclose : token ≠ ")") (hfind : Shorthands.quotes.find? token = none) :
    (atom token).Legible := by
  obtain ⟨chars, rfl⟩ : ∃ chars, token = String.ofList chars :=
    ⟨token.toList, String.ofList_toList.symm⟩
  rw [String.toList_ofList] at htoken
  cases htoken with
  | mark c hc =>
    have hne (d : Char) (h : String.ofList [c] ≠ String.ofList [d]) : c ≠ d := by
      rintro rfl
      exact h rfl
    exact absurd hfind (Shorthands.find?_quotes_ne_none hc (hne '(' hopen) (hne ')' hclose))
  | splice => exact absurd hfind (by decide)
  | string body hbody =>
    have hatom : atom (String.ofList ('"' :: (body ++ ['"']))) = .str (String.ofList body) := by
      simp [atom]
    rw [hatom]
    exact .readable _ (.str _ (by simpa using hbody))
  | run chars hne hrun => exact legible_atom_of_run (by simpa using hne) (by simpa using hrun)

theorem inherited_legible : Inherited .quotes Legible where
  atom _ := legible_atom
  shorthand token keyword e hfind he := by
    have hkeyword : (Expr.symbol keyword).Legible :=
      .readable _ (.symbol keyword (Shorthands.isName_of_find?_quotes hfind))
    exact .list _ (by simpa using ⟨hkeyword, he⟩)
  list items := .list items

-- Expressions with a space between them.
theorem renderItems_eq_intercalate (items : List Expr) :
    renderItems items = " ".intercalate (items.map Expr.render) := by
  induction items with
  | nil => rfl
  | cons item items ih =>
    cases items with
    | nil => simp [renderItems]
    | cons next items =>
      rw [renderItems, ih]
      · simp only [List.map_cons, String.intercalate_cons_cons]
      · simp

-- The canonical texts of readable expressions, a space apart, are read as they are.
theorem parseAll_renderItems {items : List Expr} (h : ∀ item ∈ items, item.Readable) :
    parseAll .quotes (renderItems items) = .ok items := by
  have hend : EndsRun [] := by simp [EndsRun]
  have hlexed : Lexed (renderItems items).toList (itemTokens items) := by
    simpa using lexed_renderItems (fun item hitem => (h item hitem).lexed) hend .nil
  rw [parseAll_eq_formsOf, hlexed.textItems, formsOf_itemTokens_nil h]

-- Whatever is read can be printed, and all of it that has no infinite number in it is readable.
-- If there is none anywhere, the canonical texts are read again as the same expressions.
theorem parseAll_printable_image {text : String} {forms : List Expr}
    (h : parseAll .quotes text = .ok forms) :
    (∀ e ∈ forms, e.printable ∧ ∀ part, part.OccursIn e →
      part.Readable ∨ ∃ x : Expr, x.IsInfinite ∧ x.OccursIn part) ∧
    ((∀ e ∈ forms, ∀ x : Expr, x.IsInfinite → ¬x.OccursIn e) →
      parseAll .quotes (" ".intercalate (forms.map Expr.render)) = .ok forms) := by
  have hlegible : ∀ e ∈ forms, e.Legible := inherited_legible.parseAll h
  refine ⟨fun e he => ⟨(hlegible e he).printable, fun part hpart => ?_⟩, fun hfinite => ?_⟩
  · exact ((hlegible e he).of_occursIn hpart).readable_or
  · have hreadable : ∀ e ∈ forms, e.Readable := by
      intro e he
      refine (hlegible e he).readable_or.resolve_right ?_
      rintro ⟨x, hx, hin⟩
      exact hfinite e he x hx hin
    rw [← renderItems_eq_intercalate]
    exact parseAll_renderItems hreadable

theorem parseAll_printable_image_of_shorthands :
    let forms : List Expr := [.list [.symbol "quote", .list [.number (.int 5),
        .number (.float (.ofDecimal false ⟨5, -1⟩)), .str "a\\\"b"]],
      .list [.symbol "quasiquote", .list [.symbol "unquotesplicing", .symbol "x"]]]
    parseAll .quotes "\x27(+5 .5 \"a\\\"b\") ; (\n\x60,@x" = .ok forms ∧
      (∀ e ∈ forms, e.printable ∧ ∀ part, part.OccursIn e →
        part.Readable ∨ ∃ x : Expr, x.IsInfinite ∧ x.OccursIn part) ∧
      parseAll .quotes "(quote (5 0.5 \"a\\\"b\")) (quasiquote (unquotesplicing x))" =
        .ok forms := by
  intro forms
  have hitems : Input.textItems "\x27(+5 .5 \"a\\\"b\") ; (\n\x60,@x".toList =
      ([['\x27'], ['('], ['+', '5'], ['.', '5'], "\"a\\\"b\"".toList, [')'], ['\x60'],
        [',', '@'], ['x']].map .token) := by
    with_unfolding_all rfl
  have hint : Number.ofLiteral? ['+', '5'] = some (.int 5) := by decide +kernel
  have hfloat : Number.ofLiteral? ['.', '5'] = some (.float (.ofDecimal false ⟨5, -1⟩)) := by
    decide +kernel
  have hsymbol : Number.ofLiteral? ['x'] = none := by decide
  have hforms : parseAll .quotes "\x27(+5 .5 \"a\\\"b\") ; (\n\x60,@x" = .ok forms := by
    rw [parseAll_eq_formsOf, hitems]
    simp [formsOf, feed, complete, Shorthands.find?, Shorthands.quotes, List.lookup_cons, atom,
      hint, hfloat, hsymbol, forms, Except.map]
  have hfinite (negative : Bool) : Binary64.infinity negative ≠ .ofDecimal false ⟨5, -1⟩ := by
    revert negative
    decide +kernel
  have hnone : ∀ e ∈ forms, ∀ x : Expr, x.IsInfinite → ¬x.OccursIn e := by
    rintro e he _ ⟨negative, rfl⟩
    simp only [forms, List.mem_cons, List.not_mem_nil, or_false] at he
    rcases he with rfl | rfl <;> simp [hfinite]
  obtain ⟨hparts, hagain⟩ := parseAll_printable_image hforms
  have htext : " ".intercalate (forms.map Expr.render) =
      "(quote (5 0.5 \"a\\\"b\")) (quasiquote (unquotesplicing x))" := by decide +kernel
  exact ⟨hforms, hparts, by rw [← htext]; exact hagain hnone⟩

end Reader

end Lisplet
