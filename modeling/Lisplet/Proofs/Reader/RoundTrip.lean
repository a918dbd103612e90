import Lisplet.Proofs.Reader.Forms
import Lisplet.Proofs.Reader.Readable

namespace Lisplet

open Token

-- White space, and comments with the newlines that end them.
inductive IsLayout : List Char → Prop
  | nil : IsLayout []
  | blank (c : Char) (rest : List Char) (hc : isBlank c) (hrest : IsLayout rest) :
      IsLayout (c :: rest)
  | comment (body rest : List Char) (hbody : '\n' ∉ body) (hrest : IsLayout rest) :
      IsLayout (';' :: (body ++ '\n' :: rest))

namespace Expr

mutual

def tokens : Expr → List (List Char)
  | .list items => ['('] :: (itemTokens items ++ [[')']])
  | e => [e.render.toList]

def itemTokens : List Expr → List (List Char)
  | [] => []
  | item :: rest => item.tokens ++ itemTokens rest

end

-- Expressions as text, with a gap after each of them.
def layOut (lead : String) : List (Expr × String) → String
  | [] => lead
  | (e, gap) :: rest => lead ++ e.render ++ layOut gap rest

end Expr

theorem IsLayout.lexed {gap rest : List Char} {tokens : List (List Char)} (h : IsLayout gap)
    (hrest : Lexed rest tokens) : Lexed (gap ++ rest) tokens := by
  induction h with
  | nil => exact hrest
  | blank c gap hc _ ih => exact .blank c _ tokens hc ih
  | comment body gap hbody _ ih =>
    have hnewline : Lexed ('\n' :: (gap ++ rest)) tokens := .blank '\n' _ tokens (by rfl) ih
    simpa using Lexed.comment body _ tokens hbody (by simp) hnewline

-- A run of characters ends before the text begins.
def EndsRun (text : List Char) : Prop := ∀ c ∈ text.head?, isRunChar c = false

theorem IsLayout.endsRun {gap : List Char} (h : IsLayout gap) (hne : gap ≠ []) (rest : List Char) :
    EndsRun (gap ++ rest) := by
  cases h with
  | nil => exact absurd rfl hne
  | blank c gap hc _ =>
    rintro _ ⟨⟩
    exact isRunChar_eq_false_of_isBlank hc
  | comment body gap _ _ =>
    rintro _ ⟨⟩
    rfl

theorem Spells.lexed {text : String} {e : Expr} {rest : List Char} {tokens : List (List Char)}
    (h : Spells text e) (hend : EndsRun rest) (hrest : Lexed rest tokens) :
    Lexed (text.toList ++ rest) (text.toList :: tokens) := by
  refine .token text.toList rest tokens h.isToken ⟨fun _ => hend, fun hcomma => ?_⟩ hrest
  exact absurd (h.not_mark ',' (by simp [hcomma])) (by decide)

theorem lexed_close {rest : List Char} {tokens : List (List Char)} (hrest : Lexed rest tokens) :
    Lexed (')' :: rest) ([')'] :: tokens) :=
  .token [')'] rest tokens (.mark ')' rfl) ⟨by simp [isRunChar, isMark], by simp⟩ hrest

theorem lexed_open {rest : List Char} {tokens : List (List Char)} (hrest : Lexed rest tokens) :
    Lexed ('(' :: rest) (['('] :: tokens) :=
  .token ['('] rest tokens (.mark '(' rfl) ⟨by simp [isRunChar, isMark], by simp⟩ hrest

namespace Expr

theorem lexed_renderItems {items : List Expr}
    (h : ∀ item ∈ items, ∀ rest tokens, EndsRun rest → Lexed rest tokens →
      Lexed (item.render.toList ++ rest) (item.tokens ++ tokens))
    {rest : List Char} {tokens : List (List Char)} (hend : EndsRun rest)
    (hrest : Lexed rest tokens) :
    Lexed ((renderItems items).toList ++ rest) (itemTokens items ++ tokens) := by
  induction items with
  | nil => simpa [renderItems, itemTokens] using hrest
  | cons item items ih =>
    have hitem := h item List.mem_cons_self
    have hitems := ih fun other hother => h other (List.mem_cons_of_mem item hother)
    cases items with
    | nil => simpa [renderItems, itemTokens] using hitem rest tokens hend hrest
    | cons next items =>
      have hspace := Lexed.blank ' ' _ _ (by rfl) hitems
      simpa [renderItems, itemTokens] using hitem _ _ (by rintro _ ⟨⟩; rfl) hspace

theorem printableItems_iff (items : List Expr) :
    printableItems items ↔ ∀ item ∈ items, item.printable := by
  induction items with
  | nil => simp [printableItems]
  | cons item items ih => simp [printableItems, ih]

theorem Readable.printable {e : Expr} (h : e.Readable) : e.printable := by
  induction h with
  | int n h =>
    have hpow : 2 ^ 1024 ≤ 10 ^ Number.digitLimit :=
      calc 2 ^ 1024 ≤ 10 ^ 1024 := Nat.pow_le_pow_left (by omega) 1024
        _ ≤ 10 ^ Number.digitLimit := Nat.pow_le_pow_right (by omega) (by decide)
    simp only [Expr.printable, Number.printable, decide_eq_true_eq, Nat.pow_eq]
    omega
  | list items _ ih => exact (printableItems_iff items).mpr ih
  | _ => rfl

theorem tokens_of_ne_list {e : Expr} (h : ∀ items, e ≠ .list items) :
    e.tokens = [e.render.toList] := by
  cases e with
  | list items => exact absurd rfl (h items)
  | _ => rfl

-- The text of an expression is the text of its tokens.
theorem Readable.lexed {e : Expr} (h : e.Readable) (rest : List Char) (tokens : List (List Char))
    (hend : EndsRun rest) (hrest : Lexed rest tokens) :
    Lexed (e.render.toList ++ rest) (e.tokens ++ tokens) := by
  induction h using Readable.leaf_or_list generalizing rest tokens with
  | leaf e _ hleaf hspells =>
    rw [tokens_of_ne_list hleaf]
    exact hspells.lexed hend hrest
  | list items _ ih =>
    have hclose := lexed_renderItems ih (by rintro _ ⟨⟩; rfl) (lexed_close hrest)
    simpa [render, Expr.tokens] using lexed_open hclose

theorem endsRun_layOut {gap : String} {forms : List (Expr × String)} (hgap : IsLayout gap.toList)
    (hapart : forms = [] ∨ gap ≠ "") : EndsRun (layOut gap forms).toList := by
  by_cases hempty : gap = ""
  · rcases hapart with rfl | hne
    · simp [layOut, hempty, EndsRun]
    · exact absurd hempty hne
  · have hstart : ∃ rest, (layOut gap forms).toList = gap.toList ++ rest := by
      cases forms with
      | nil => exact ⟨[], by simp [layOut]⟩
      | cons form forms =>
        exact ⟨form.1.render.toList ++ (layOut form.2 forms).toList, by simp [layOut]⟩
    obtain ⟨rest, hrest⟩ := hstart
    rw [hrest]
    exact hgap.endsRun (by simpa using hempty) rest

theorem lexed_layOut {lead : String} {forms : List (Expr × String)}
    (hlead : IsLayout lead.toList) (hread : ∀ form ∈ forms, form.1.Readable)
    (hgap : ∀ form ∈ forms, IsLayout form.2.toList)
    (hapart : ∀ form ∈ forms.dropLast, form.2 ≠ "") :
    Lexed (layOut lead forms).toList (itemTokens (forms.map Prod.fst)) := by
  induction forms generalizing lead with
  | nil => simpa [layOut, itemTokens] using hlead.lexed .nil
  | cons form forms ih =>
    obtain ⟨e, gap⟩ := form
    have he : e.Readable := hread (e, gap) List.mem_cons_self
    have hlayout : IsLayout gap.toList := hgap (e, gap) List.mem_cons_self
    have hgaps : (forms = [] ∨ gap ≠ "") ∧ ∀ form ∈ forms.dropLast, form.2 ≠ "" := by
      cases forms with
      | nil => simp
      | cons next forms => simpa [List.dropLast] using hapart
    have hrest : Lexed (layOut gap forms).toList (itemTokens (forms.map Prod.fst)) :=
      ih hlayout (fun form hform => hread form (List.mem_cons_of_mem _ hform))
        (fun form hform => hgap form (List.mem_cons_of_mem _ hform)) hgaps.2
    simpa [layOut, itemTokens] using
      hlead.lexed (he.lexed _ _ (endsRun_layOut hlayout hgaps.1) hrest)

end Expr

namespace Reader

open Lisplet.Expr

-- What the items after a step make of it.
def formsFrom (table : Shorthands) (items : List Item) : Progress → Except ReadError (List Expr)
  | .done e => (formsOf table [] items).map (e :: ·)
  | .failed error => .error error
  | .more stack => formsOf table stack items

theorem formsOf_token (table : Shorthands) (stack : List Opening) (text : List Char)
    (items : List Item) :
    formsOf table stack (.token text :: items) =
      formsFrom table items (feed table stack (String.ofList text)) := by
  rw [formsOf]
  cases feed table stack (String.ofList text) <;> rfl

-- The tokens that are more than an atom each begin with a mark.
theorem feed_spells {text : String} {e : Expr} (h : Spells text e) (stack : List Opening) :
    feed .quotes stack text = complete e stack := by
  have hmark (token : String) (htoken : ∃ c ∈ token.toList.head?, isMark c) : text ≠ token := by
    rintro rfl
    obtain ⟨c, hc, hmark⟩ := htoken
    exact absurd hmark (by simp [h.not_mark c hc])
  have hopen : text ≠ "(" := hmark "(" (by simp [isMark])
  have hclose : text ≠ ")" := hmark ")" (by simp [isMark])
  have hfind : Shorthands.quotes.find? text = none := by
    simp [Shorthands.find?, Shorthands.quotes, List.lookup_eq_none_iff, hmark, isMark]
  simp [feed, hopen, hclose, hfind, h.atom_eq]

theorem formsOf_itemTokens {items : List Expr}
    (h : ∀ item ∈ items, ∀ stack later, formsOf .quotes stack (item.tokens.map .token ++ later) =
      formsFrom .quotes later (complete item stack))
    (reversed : List Expr) (stack : List Opening) (later : List Item) :
    formsOf .quotes (.items reversed :: stack) ((itemTokens items).map .token ++ later) =
      formsOf .quotes (.items (items.reverse ++ reversed) :: stack) later := by
  induction items generalizing reversed with
  | nil => rfl
  | cons item items ih =>
    have hitem := h item List.mem_cons_self
    have hitems := ih fun other hother => h other (List.mem_cons_of_mem item hother)
    simp only [itemTokens, List.map_append, List.append_assoc, hitem, complete, formsFrom, hitems]
    simp

-- Reading the tokens of an expression is having read the expression.
theorem formsOf_tokens {e : Expr} (h : e.Readable) (stack : List Opening) (later : List Item) :
    formsOf .quotes stack (e.tokens.map .token ++ later) =
      formsFrom .quotes later (complete e stack) := by
  induction h using Readable.leaf_or_list generalizing stack later with
  | leaf e _ hleaf hspells =>
    simp [tokens_of_ne_list hleaf, formsOf_token, feed_spells hspells]
  | list items _ ih =>
    have hopen : feed .quotes stack "(" = .more (.items [] :: stack) := rfl
    have hclose :
        feed .quotes (.items items.reverse :: stack) ")" = complete (.list items) stack := by
      simp [feed]
    have hitems := formsOf_itemTokens ih [] stack (.token [')'] :: later)
    simp [Expr.tokens, formsOf_token, hopen, formsFrom, hitems, hclose]

theorem formsOf_itemTokens_nil {items : List Expr} (h : ∀ item ∈ items, item.Readable) :
    formsOf .quotes [] ((itemTokens items).map .token) = .ok items := by
  induction items with
  | nil => rfl
  | cons item items ih =>
    have hitems := ih fun other hother => h other (List.mem_cons_of_mem item hother)
    rw [itemTokens, List.map_append, formsOf_tokens (h item List.mem_cons_self), complete,
      formsFrom, hitems]
    rfl

-- Expressions come back from their texts, whatever layout surrounds and separates them.
theorem parseAll_layOut (lead : String) (forms : List (Expr × String))
    (hread : ∀ form ∈ forms, form.1.Readable) (hlead : IsLayout lead.toList)
    (hgap : ∀ form ∈ forms, IsLayout form.2.toList)
    (hapart : ∀ form ∈ forms.dropLast, form.2 ≠ "") :
    (∀ form ∈ forms, form.1.printable) ∧
      parseAll .quotes (layOut lead forms) = .ok (forms.map Prod.fst) := by
  refine ⟨fun form hform => (hread form hform).printable, ?_⟩
  have hitems : Input.textItems (layOut lead forms).toList =
      (itemTokens (forms.map Prod.fst)).map .token :=
    (lexed_layOut hlead hread hgap hapart).textItems
  rw [parseAll_eq_formsOf, hitems, formsOf_itemTokens_nil]
  simpa using fun e gap hform => hread (e, gap) hform

theorem parseAll_layOut_nested :
    parseAll .quotes " ; (\n(f \"(;\\\"\" () -0.0)\t;\x27\n-12\n" =
      .ok [.list [.symbol "f", .str "(;\\\"", .list [], .number (.float (.signed true 0))],
        .number (.int (-12))] := by
  let zero : Binary64 := .signed true 0
  let call : Expr := .list [.symbol "f", .str "(;\\\"", .list [], .number (.float zero)]
  have hname : IsName "f" := by
    have hdecimal : ¬IsDecimalText "f".toList := by
      rw [← Number.isSome_ofLiteral?_iff]
      decide
    have hrun : ∀ c ∈ "f".toList, isRunChar c := by simp [isRunChar, isBlank, isMark]
    exact ⟨by decide, hrun, by decide, by decide, fun h => hdecimal h.isDecimalText, hdecimal⟩
  have hbody : StringBody "(;\\\"".toList :=
    .plain '(' _ (by decide) (by decide) (by decide) <|
      .plain ';' _ (by decide) (by decide) (by decide) <| .escaped '"' _ (by decide) .nil
  have hcall : call.Readable := by
    refine .list _ fun item hitem => ?_
    simp only [List.mem_cons, List.not_mem_nil, or_false] at hitem
    rcases hitem with rfl | rfl | rfl | rfl
    · exact .symbol "f" hname
    · exact .str _ hbody
    · exact .list [] (by simp)
    · exact .float zero (by rfl)
  have hlead : IsLayout " ; (\n".toList :=
    .blank ' ' _ (by rfl) <| .comment [' ', '('] [] (by decide) .nil
  have hgap : IsLayout "\t;\x27\n".toList :=
    .blank '\t' _ (by rfl) <| .comment ['\x27'] [] (by decide) .nil
  have hend : IsLayout "\n".toList := .blank '\n' _ (by rfl) .nil
  have htext : layOut " ; (\n" [(call, "\t;\x27\n"), (.number (.int (-12)), "\n")] =
      " ; (\n(f \"(;\\\"\" () -0.0)\t;\x27\n-12\n" := by decide +kernel
  rw [← htext]
  exact (parseAll_layOut " ; (\n" [(call, "\t;\x27\n"), (.number (.int (-12)), "\n")]
    (by simpa using ⟨hcall, .int (-12) (by decide +kernel)⟩) hlead (by simpa using ⟨hgap, hend⟩)
    (by simp)).2

end Reader

end Lisplet
