import Lisplet.Proofs.Reader.Forms

namespace Lisplet

namespace Reader

-- What atoms have, and what lists have if their items do, those included that shorthands make.
structure Inherited (table : Shorthands) (ok : Expr → Prop) : Prop where
  atom (token : String) : Token.IsToken token.toList → token ≠ "(" → token ≠ ")" →
    table.find? token = none → ok (atom token)
  shorthand (token keyword : String) (e : Expr) : table.find? token = some keyword → ok e →
    ok (.list [.symbol keyword, e])
  list (items : List Expr) : (∀ item ∈ items, ok item) → ok (.list items)

end Reader

variable {table : Shorthands} {ok : Expr → Prop}

def Opening.Holds (table : Shorthands) (ok : Expr → Prop) : Opening → Prop
  | .items reversed => ∀ item ∈ reversed, ok item
  | .operand token keyword => table.find? token = some keyword

def Progress.Holds (table : Shorthands) (ok : Expr → Prop) : Progress → Prop
  | .done e => ok e
  | .more stack => ∀ opening ∈ stack, opening.Holds table ok
  | .failed _ => True

namespace Reader

theorem complete_holds (h : Inherited table ok) {e : Expr} (he : ok e) {stack : List Opening}
    (hstack : ∀ opening ∈ stack, opening.Holds table ok) :
    (complete e stack).Holds table ok := by
  induction stack generalizing e with
  | nil => exact he
  | cons opening stack ih =>
    obtain ⟨hopening, hrest⟩ := List.forall_mem_cons.mp hstack
    cases opening with
    | items reversed =>
      have hitems : (Opening.items (e :: reversed)).Holds table ok :=
        List.forall_mem_cons.mpr ⟨he, hopening⟩
      exact List.forall_mem_cons.mpr ⟨hitems, hrest⟩
    | operand token keyword => exact ih (h.shorthand token keyword e hopening he) hrest

theorem feed_holds (h : Inherited table ok) {token : String} (htoken : Token.IsToken token.toList)
    {stack : List Opening} (hstack : ∀ opening ∈ stack, opening.Holds table ok) :
    (feed table stack token).Holds table ok := by
  unfold feed
  split
  · have hitems : (Opening.items []).Holds table ok := List.forall_mem_nil ok
    exact List.forall_mem_cons.mpr ⟨hitems, hstack⟩
  · next hopen =>
    split
    · next hclose =>
      split
      · next reversed stack =>
        obtain ⟨hitems, hrest⟩ := List.forall_mem_cons.mp hstack
        have hlist : ok (.list reversed.reverse) :=
          h.list _ fun item hitem => hitems item (List.mem_reverse.mp hitem)
        exact complete_holds h hlist hrest
      · trivial
    · next hclose =>
      split
      · next keyword hfind => exact List.forall_mem_cons.mpr ⟨hfind, hstack⟩
      · next hfind => exact complete_holds h (h.atom token htoken hopen hclose hfind) hstack

theorem formsOf_holds (h : Inherited table ok) {items : List Item}
    (hitems : ∀ text, .token text ∈ items → Token.IsToken text) {stack : List Opening}
    (hstack : ∀ opening ∈ stack, opening.Holds table ok) {forms : List Expr}
    (hforms : formsOf table stack items = .ok forms) : ∀ e ∈ forms, ok e := by
  induction items generalizing stack forms with
  | nil =>
    rw [formsOf] at hforms
    split at hforms <;> cases hforms
    exact List.forall_mem_nil ok
  | cons item items ih =>
    have hrest : ∀ text, .token text ∈ items → Token.IsToken text := fun text htext =>
      hitems text (List.mem_cons_of_mem item htext)
    cases item with
    | unterminated => cases hforms
    | token text =>
      have htoken : Token.IsToken (String.ofList text).toList := by
        simpa using hitems text List.mem_cons_self
      have hfeed := feed_holds h htoken hstack
      rw [formsOf] at hforms
      split at hforms
      · next e hdone =>
        rw [hdone] at hfeed
        cases hlater : formsOf table [] items with
        | error error => rw [hlater] at hforms; cases hforms
        | ok later =>
          rw [hlater] at hforms
          cases hforms
          exact List.forall_mem_cons.mpr ⟨hfeed, ih hrest (List.forall_mem_nil _) hlater⟩
      · cases hforms
      · next stack' hmore =>
        rw [hmore] at hfeed
        exact ih hrest hfeed hforms

-- Everything that is read from a text has it.
theorem Inherited.parseAll (h : Inherited table ok) {text : String} {forms : List Expr}
    (hforms : parseAll table text = .ok forms) : ∀ e ∈ forms, ok e := by
  rw [parseAll_eq_formsOf] at hforms
  exact formsOf_holds h (fun _ => Input.isToken_of_mem_textItems) (List.forall_mem_nil _) hforms

end Reader

end Lisplet
