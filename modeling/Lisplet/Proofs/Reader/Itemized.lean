import Lisplet.Proofs.Reader.Item

namespace Lisplet

open Token

-- A string that begins in front of this ends in it.
def ClosesString (chars : List Char) : Prop :=
  ∃ body rest, StringBody body ∧ chars = body ++ '"' :: rest

-- What there is on a line from left to right, up to its end, a comment, or a string that has no
-- end there.
inductive Itemized : List Char → List Item → Prop
  | nil : Itemized [] []
  | blank (c : Char) (line : List Char) (items : List Item) (hc : isBlank c)
      (hline : Itemized line items) : Itemized (c :: line) items
  | comment (line : List Char) : Itemized (';' :: line) []
  | token (token line : List Char) (items : List Item) (htoken : IsToken token)
      (hsep : Separated token line) (hline : Itemized line items) :
      Itemized (token ++ line) (.token token :: items)
  | unterminated (line : List Char) (hline : ¬ClosesString line) :
      Itemized ('"' :: line) [.unterminated]

namespace Input

theorem IsLine.of_append (chars : List Char) {line : List Char} (h : IsLine (chars ++ line)) :
    IsLine line := by
  obtain ⟨body, hbody, hline | hline⟩ := h
  · have hnone : '\n' ∉ line := by
      rw [← hline] at hbody
      exact fun hmem => hbody (List.mem_append_right _ hmem)
    exact ⟨line, hnone, .inl rfl⟩
  · rcases List.append_eq_append_iff.mp hline with ⟨front, hfront, hback⟩ | ⟨front, hfront, hback⟩
    · have hnone : '\n' ∉ front := by
        rw [hfront] at hbody
        exact fun hmem => hbody (List.mem_append_right _ hmem)
      exact ⟨front, hnone, .inr hback⟩
    · rcases List.cons_eq_append_iff.mp hback with ⟨-, hend⟩ | ⟨rest, -, hend⟩
      · exact ⟨[], by simp, .inr hend⟩
      · have hempty : line = [] := by simp_all
        exact ⟨[], by simp, .inl hempty⟩

theorem IsLine.of_cons {c : Char} {line : List Char} (h : IsLine (c :: line)) : IsLine line :=
  .of_append [c] h

-- On a line that is all there is to a string.
theorem stringTail?_eq_none {line : List Char} (hline : IsLine line) (h : ¬ClosesString line) :
    stringTail? line = none := by
  have hbody (body rest : List Char) (hnone : '\n' ∉ body)
      (hopen : ¬ClosesString (body ++ rest)) : stringTail? body = none := by
    cases hfound : stringTail? body with
    | none => rfl
    | some found =>
      obtain ⟨tail, after⟩ := found
      obtain ⟨inner, hinner, rfl⟩ := exists_body_of_stringTail? hnone hfound
      have hsplit := eq_append_of_stringTail? hfound
      exact absurd ⟨inner, after ++ rest, hinner, by simp [hsplit]⟩ hopen
  obtain ⟨body, hnone, rfl | rfl⟩ := hline
  · exact hbody line [] hnone (by simpa using h)
  · rw [stringTail?_append_blank rfl hnone, hbody body ['\n'] hnone h, Option.map_none]

theorem lineItems_of_itemized {line : List Char} {items : List Item} (hline : IsLine line)
    (h : Itemized line items) : lineItems line = items := by
  induction h with
  | nil => exact lineItems_of_blank rfl
  | blank c line items hc _ ih =>
    rw [lineItems_congr (scan_blank hc line)]
    exact ih hline.of_cons
  | comment line => exact lineItems_of_blank (scan_comment line)
  | token token line items htoken hsep _ ih =>
    have hrest : IsLine line := hline.of_append token
    rw [lineItems_of_token (scan_token htoken hsep), lineItems_restOfLine hrest, ih hrest]
  | unterminated line hopen =>
    have hscan : scan ('"' :: line) = .unterminated := by
      rw [scan_quote, stringTail?_eq_none hline.of_cons hopen]
    exact lineItems_of_unterminated hscan

-- The first character decides what a line begins with.
theorem blank_or_token (c : Char) (rest : List Char) :
    isBlank c ∨ c = ';' ∨ (c = '"' ∧ ¬ClosesString rest) ∨
      ∃ token line, IsToken token ∧ Separated token line ∧ c :: rest = token ++ line := by
  rcases class_cases c with hc | hc | rfl | rfl | hc
  · exact .inl hc
  · have hmark : ¬isRunChar c := by simp [isRunChar, hc]
    by_cases hsplice : c = ',' ∧ rest.head? = some '@'
    · obtain ⟨rfl, hhead⟩ := hsplice
      obtain ⟨line, rfl⟩ := List.head?_eq_some_iff.mp hhead
      have hsep : Separated [',', '@'] line :=
        ⟨fun hall => absurd (hall ',' List.mem_cons_self) hmark, fun hcomma => by cases hcomma⟩
      exact .inr (.inr (.inr ⟨[',', '@'], line, .splice, hsep, rfl⟩))
    · have hsep : Separated [c] rest :=
        ⟨fun hall => absurd (hall c List.mem_cons_self) hmark,
          fun hcomma hhead => hsplice ⟨List.singleton_inj.mp hcomma, hhead⟩⟩
      exact .inr (.inr (.inr ⟨[c], rest, .mark c hc, hsep, rfl⟩))
  · by_cases hclose : ClosesString rest
    · obtain ⟨body, line, hbody, rfl⟩ := hclose
      have hsep : Separated ('"' :: (body ++ ['"'])) line :=
        ⟨fun hall => absurd (hall '"' List.mem_cons_self) (by decide),
          fun hcomma => by cases hcomma⟩
      exact .inr (.inr (.inr ⟨_, line, .string body hbody, hsep, by simp⟩))
    · exact .inr (.inr (.inl ⟨rfl, hclose⟩))
  · exact .inr (.inl rfl)
  · have hrun : ∀ d ∈ c :: rest.takeWhile isRunChar, isRunChar d :=
      List.forall_mem_cons.mpr ⟨hc, fun d hd => List.mem_takeWhile_imp hd⟩
    have hsep : Separated (c :: rest.takeWhile isRunChar) (rest.dropWhile isRunChar) := by
      refine ⟨fun _ d hd => ?_, fun hcomma => ?_⟩
      · have hnot := List.head?_dropWhile_not isRunChar rest
        rw [Option.mem_def.mp hd] at hnot
        simpa using hnot
      · obtain ⟨rfl, -⟩ := List.cons.inj hcomma
        exact absurd hc (by decide)
    exact .inr (.inr (.inr ⟨_, _, .run _ (List.cons_ne_nil _ _) hrun, hsep, by simp⟩))

-- After each blank and each token there is less of the line.
theorem exists_itemized (line : List Char) : ∃ items, Itemized line items := by
  induction hlength : line.length using Nat.strongRecOn generalizing line with
  | ind length ih =>
    subst hlength
    cases line with
    | nil => exact ⟨[], .nil⟩
    | cons c rest =>
      rcases blank_or_token c rest with hc | rfl | ⟨rfl, hopen⟩ | ⟨token, line, htoken, hsep, heq⟩
      · obtain ⟨items, hitems⟩ := ih rest.length (Nat.lt_succ_self _) rest rfl
        exact ⟨items, .blank c rest items hc hitems⟩
      · exact ⟨[], .comment rest⟩
      · exact ⟨_, .unterminated rest hopen⟩
      · have hpos : 0 < token.length := List.length_pos_iff.mpr htoken.ne_nil
        have hless : line.length < (c :: rest).length := by
          rw [heq, List.length_append]
          omega
        obtain ⟨items, hitems⟩ := ih line.length hless line rfl
        rw [heq]
        exact ⟨_, .token token line items htoken hsep hitems⟩

end Input

end Lisplet
