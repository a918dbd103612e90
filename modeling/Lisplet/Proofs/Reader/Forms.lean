import Lisplet.Proofs.Reader.Item

namespace Lisplet

theorem exists_of_map_eq_ok {ε α β : Type} {x : Except ε α} {f : α → β} {b : β}
    (h : x.map f = .ok b) : ∃ a, x = .ok a ∧ f a = b := by
  cases x with
  | error error => cases h
  | ok a => exact ⟨a, rfl, Except.ok.inj h⟩

namespace Reader

-- The expressions that the items spell, when some of the first has been read before.
def formsOf (table : Shorthands) (stack : List Opening) : List Item → Except ReadError (List Expr)
  | [] => if stack.isEmpty then .ok [] else .error (endError stack)
  | .unterminated :: _ => .error .unterminatedString
  | .token text :: items =>
    match feed table stack (String.ofList text) with
    | .done e => (formsOf table [] items).map (e :: ·)
    | .failed error => .error error
    | .more stack => formsOf table stack items

end Reader

namespace Input

open Reader

-- Lines that hold at least their newline never look like an end of input.
def Unbroken (input : Input) : Prop := ∀ line ∈ input.lines, line ≠ []

-- What one reading contributes, and what the expressions after it are.
def formsAfter (table : Shorthands) :
    Except ReadError (Option Expr) × Input → Except ReadError (List Expr)
  | (.ok (some e), after) => (formsOf table [] after.items).map (e :: ·)
  | (.ok none, _) => .ok []
  | (.error error, _) => .error error

theorem formsOf_lineItems (table : Shorthands) (stack : List Opening) (line : List Char)
    (later : List Item) :
    formsOf table stack (lineItems line ++ later) =
      match advance table stack line with
      | .form e rest => (formsOf table [] (lineItems rest ++ later)).map (e :: ·)
      | .failed error _ => .error error
      | .starved stack => formsOf table stack later := by
  fun_induction advance table stack line with
  | case1 stack line text rest hscan e hfeed =>
    simp [lineItems_of_token hscan, formsOf, hfeed]
  | case2 stack line text rest hscan error hfeed =>
    simp [lineItems_of_token hscan, formsOf, hfeed]
  | case3 stack line text rest hscan stack' hfeed ih =>
    simp only [lineItems_of_token hscan, List.cons_append, formsOf, hfeed, ih]
  | case4 stack line hscan => simp [lineItems_of_unterminated hscan, formsOf]
  | case5 stack line hscan => simp [lineItems_of_blank hscan]

theorem formsOf_readLines (table : Shorthands) (lines : List (List Char)) (stack : List Opening)
    (h : (ofLines lines).Unbroken) :
    formsOf table stack (lines.flatMap lineItems) = formsAfter table (readLines table stack lines) ∧
      (readLines table stack lines).2.Unbroken := by
  induction lines generalizing stack with
  | nil =>
    refine ⟨?_, by simp [readLines, Unbroken]⟩
    cases stack <;> rfl
  | cons line lines ih =>
    obtain ⟨hline, hlines⟩ : line ≠ [] ∧ (ofLines lines).Unbroken := List.forall_mem_cons.mp h
    rw [List.flatMap_cons, formsOf_lineItems, readLines, if_neg hline]
    cases advance table stack line with
    | form e rest => exact ⟨rfl, hlines⟩
    | failed error rest => exact ⟨rfl, hlines⟩
    | starved stack' => exact ih stack' hlines

theorem formsOf_read (table : Shorthands) (input : Input) (h : input.Unbroken) :
    formsOf table [] input.items = formsAfter table (input.read table) ∧
      (input.read table).2.Unbroken := by
  rw [items, formsOf_lineItems, read]
  cases advance table [] input.rest with
  | form e rest => exact ⟨rfl, h⟩
  | failed error rest => exact ⟨rfl, h⟩
  | starved stack => exact formsOf_readLines table input.lines stack h

theorem readAll_eq_formsOf (table : Shorthands) (input : Input) (h : input.Unbroken) :
    (input.readAll table).1 = formsOf table [] input.items := by
  fun_induction readAll table input with
  | case1 input after hread => simp [(formsOf_read table input h).1, hread, formsAfter]
  | case2 input error after hread => simp [(formsOf_read table input h).1, hread, formsAfter]
  | case3 input e after hread rest final hrest ih =>
    obtain ⟨hforms, hafter⟩ := formsOf_read table input h
    rw [hread] at hforms hafter
    rw [hforms, formsAfter, ← ih hafter, hrest]

end Input

-- Reading a text forgets how it is laid out.
theorem Reader.parseAll_eq_formsOf (table : Shorthands) (text : String) :
    parseAll table text = formsOf table [] (Input.textItems text.toList) := by
  have h : (Input.ofText text).Unbroken := fun line hline =>
    (Input.isLine_of_mem_splitLines hline).2
  have hblank : Input.lineItems [] = [] := Input.lineItems_of_blank rfl
  rw [parseAll, Input.readAll_eq_formsOf table _ h]
  simp [Input.items, Input.textItems, Input.ofText, Input.ofLines, hblank]

end Lisplet
