import Lisplet.Proofs.Reader.Forms

namespace Lisplet

namespace Reader

-- Where the items end between two expressions, those after them are read as if they came first.
theorem formsOf_append {table : Shorthands} {stack : List Opening} {items : List Item}
    {forms : List Expr} (h : formsOf table stack items = .ok forms) (later : List Item) :
    formsOf table stack (items ++ later) = (formsOf table [] later).map (forms ++ ·) := by
  induction items generalizing stack forms with
  | nil =>
    cases stack with
    | nil =>
      cases h
      rw [List.nil_append]
      exact (congrFun Except.map_id _).symm
    | cons opening stack => cases h
  | cons item items ih =>
    cases item with
    | unterminated => cases h
    | token text =>
      rw [List.cons_append, formsOf]
      rw [formsOf] at h
      cases hfeed : feed table stack (String.ofList text) with
      | failed error =>
        rw [hfeed] at h
        cases h
      | more stack' =>
        rw [hfeed] at h
        exact ih h
      | done e =>
        rw [hfeed] at h
        obtain ⟨rest, hrest, rfl⟩ := exists_of_map_eq_ok h
        dsimp only
        rw [ih hrest]
        cases formsOf table [] later <;> rfl

end Reader

namespace Input

-- The whole lines of a text, and what comes after its last newline.
theorem exists_ended_append (text : List Char) : ∃ ended last, text = ended ++ last ∧
    (ended = [] ∨ ended.getLast? = some '\n') ∧ '\n' ∉ last := by
  induction text with
  | nil => exact ⟨[], [], rfl, .inl rfl, List.not_mem_nil⟩
  | cons c text ih =>
    obtain ⟨ended, last, rfl, hended, hlast⟩ := ih
    by_cases hempty : ended = []
    · subst hempty
      by_cases hc : c = '\n'
      · exact ⟨[c], last, rfl, .inr (congrArg some hc), hlast⟩
      · exact ⟨[], c :: last, rfl, .inl rfl, by simp [hlast, Ne.symm hc]⟩
    · refine ⟨c :: ended, last, rfl, .inr ?_, hlast⟩
      rw [List.getLast?_cons_of_ne_nil hempty]
      exact hended.resolve_left hempty

theorem textItems_append_of_ended {text : List Char}
    (h : text = [] ∨ text.getLast? = some '\n') (rest : List Char) :
    textItems (text ++ rest) = textItems text ++ textItems rest := by
  rw [textItems, splitLines_append_of_ended h, List.flatMap_append]
  rfl

-- A newline ends whatever the text before it ends with.
theorem textItems_append_newline (first second : List Char) :
    textItems (first ++ '\n' :: second) = textItems first ++ textItems second := by
  obtain ⟨ended, last, rfl, hended, hlast⟩ := exists_ended_append first
  have hline : textItems (last ++ '\n' :: second) = lineItems last ++ textItems second := by
    rw [textItems, splitLines_ended hlast, List.flatMap_cons, lineItems_append_blank rfl hlast]
    rfl
  rw [List.append_assoc, textItems_append_of_ended hended, hline,
    textItems_append_of_ended hended, textItems_of_line hlast, List.append_assoc]

end Input

-- Whatever the first text ends with, the second is read on its own, and so it fails on its own.
theorem Reader.parseAll_append_newline (table : Shorthands) (first second : String)
    {forms : List Expr} (h : parseAll table first = .ok forms) :
    parseAll table (first ++ "\n" ++ second) = (parseAll table second).map (forms ++ ·) := by
  have hitems : Input.textItems (first ++ "\n" ++ second).toList =
      Input.textItems first.toList ++ Input.textItems second.toList := by
    rw [String.toList_append, String.toList_append, List.append_assoc]
    exact Input.textItems_append_newline first.toList second.toList
  rw [parseAll_eq_formsOf] at h
  rw [parseAll_eq_formsOf, hitems, formsOf_append h, parseAll_eq_formsOf]

-- A shorthand, a semicolon in a string, and a comment that the newline ends.
theorem Reader.parseAll_append_newline_after_comment :
    parseAll .quotes "(f \x27x) \"a;\" ; (g" =
        .ok [.list [.symbol "f", .list [.symbol "quote", .symbol "x"]], .str "a;"] ∧
      parseAll .quotes "(y" = .error .endInList ∧
      parseAll .quotes ("(f \x27x) \"a;\" ; (g" ++ "\n" ++ "(y") =
        (parseAll .quotes "(y").map
          ([.list [.symbol "f", .list [.symbol "quote", .symbol "x"]], .str "a;"] ++ ·) := by
  have hfirst : parseAll .quotes "(f \x27x) \"a;\" ; (g" =
      .ok [.list [.symbol "f", .list [.symbol "quote", .symbol "x"]], .str "a;"] := by
    with_unfolding_all exact rfl
  have hsecond : parseAll .quotes "(y" = .error .endInList := by with_unfolding_all exact rfl
  exact ⟨hfirst, hsecond, parseAll_append_newline .quotes _ "(y" hfirst⟩

end Lisplet
