import Lisplet.Expr.Printer
import Lisplet.Proofs.Reader.Decomposition
import Lisplet.Proofs.Reader.Sequence

namespace Lisplet

namespace Token

-- The characters of strings, comments and quote marks.
def reserved : List Char := ['"', ';', '\x27', '\x60', ',']

-- Without strings, comments and quote marks a text has layout, parentheses and runs.
theorem plain_cases {c : Char} (h : c ∉ reserved) : isBlank c ∨ (c = '(' ∨ c = ')') ∨ isRunChar c := by
  rcases class_cases c with hc | hc | rfl | rfl | hc
  · exact .inl hc
  · simp only [isMark_iff, reserved, List.mem_cons, List.not_mem_nil, or_false, not_or] at hc h
    obtain ⟨-, -, hquote, hquasiquote, hcomma⟩ := h
    rcases hc with hc | hc | hc | hc | hc
    · exact .inr (.inl (.inl hc))
    · exact .inr (.inl (.inr hc))
    · exact absurd hc hquote
    · exact absurd hc hquasiquote
    · exact absurd hc hcomma
  · exact absurd List.mem_cons_self h
  · exact absurd (by decide) h
  · exact .inr (.inr hc)

theorem not_paren_of_isBlank {c : Char} (h : isBlank c) : ¬(c = '(' ∨ c = ')') := by
  rintro (rfl | rfl) <;> simp [isBlank] at h

theorem not_paren_of_isRunChar {c : Char} (h : isRunChar c) : ¬(c = '(' ∨ c = ')') := by
  rintro (rfl | rfl) <;> simp [isRunChar, isMark] at h

theorem not_isBlank_of_isRunChar {c : Char} (h : isRunChar c) : isBlank c = false := by
  simp only [isRunChar, Bool.not_eq_true', Bool.or_eq_false_iff] at h
  exact h.1.1.1

-- White space ends a run, if there is one.
theorem runs_blank {c : Char} (h : isBlank c) (text : List Char) :
    runs [] (c :: text) = runs [] text := by
  rw [runs, if_pos h, if_pos rfl]

theorem runs_blank_after {c : Char} (h : isBlank c) {reversed : List Char} (hne : reversed ≠ [])
    (text : List Char) : runs reversed (c :: text) = reversed.reverse :: runs [] text := by
  rw [runs, if_pos h, if_neg hne]

theorem runs_pad_blank {c : Char} (h : isBlank c) (text : List Char) :
    runs [] (pad (c :: text)) = runs [] (pad text) := by
  rw [pad, if_neg (not_paren_of_isBlank h), runs_blank h]

theorem runs_pad_paren {c : Char} (h : c = '(' ∨ c = ')') (text : List Char) :
    runs [] (pad (c :: text)) = [c] :: runs [] (pad text) := by
  rw [pad, if_pos h]
  rcases h with rfl | rfl <;> rfl

-- A run goes on to where the next character could not belong to it.
theorem runs_pad_run {reversed text : List Char} (hne : reversed ≠ [])
    (h : ∀ c ∈ text, c ∉ reserved) :
    runs reversed (pad text) =
      (reversed.reverse ++ text.takeWhile isRunChar) :: runs [] (pad (text.dropWhile isRunChar)) := by
  induction text generalizing reversed with
  | nil => simp [pad, runs, hne]
  | cons c text ih =>
    obtain ⟨hc, htext⟩ := List.forall_mem_cons.mp h
    rcases plain_cases hc with hblank | hparen | hrun
    · have hstop : ¬isRunChar c = true := by simp [isRunChar_eq_false_of_isBlank hblank]
      rw [List.takeWhile_cons_of_neg hstop, List.dropWhile_cons_of_neg hstop, List.append_nil,
        runs_pad_blank hblank, pad, if_neg (not_paren_of_isBlank hblank), runs_blank_after hblank hne]
    · have hstop : ¬isRunChar c = true := fun hrun => not_paren_of_isRunChar hrun hparen
      have hspace : isBlank ' ' := rfl
      rw [List.takeWhile_cons_of_neg hstop, List.dropWhile_cons_of_neg hstop, List.append_nil, pad,
        if_pos hparen, runs_blank hspace, runs_blank_after hspace hne]
    · have hblank : ¬isBlank c = true := by simp [not_isBlank_of_isRunChar hrun]
      rw [List.takeWhile_cons_of_pos hrun, List.dropWhile_cons_of_pos hrun, pad,
        if_neg (not_paren_of_isRunChar hrun), runs, if_neg hblank, ih (List.cons_ne_nil _ _) htext]
      simp

end Token

open Token

-- Parentheses that are set apart and runs between white space are the tokens of the text.
theorem lexed_runs_pad (text : List Char) (h : ∀ c ∈ text, c ∉ reserved) :
    Lexed text (runs [] (pad text)) := by
  induction hlength : text.length using Nat.strongRecOn generalizing text with
  | ind length ih =>
    subst hlength
    cases text with
    | nil => exact .nil
    | cons c rest =>
      obtain ⟨hc, hrest⟩ := List.forall_mem_cons.mp h
      have hnext := ih rest.length (Nat.lt_succ_self _) rest hrest rfl
      rcases plain_cases hc with hblank | hparen | hrun
      · rw [runs_pad_blank hblank]
        exact .blank c rest _ hblank hnext
      · have hmark : isMark c := by rcases hparen with rfl | rfl <;> rfl
        have hsep : Separated [c] rest := by
          refine ⟨fun hall => ?_, fun hcomma => ?_⟩
          · exact absurd hparen (not_paren_of_isRunChar (hall c List.mem_cons_self))
          · exact absurd (List.singleton_inj.mp hcomma ▸ by decide) hc
        rw [runs_pad_paren hparen]
        exact .token [c] rest _ (.mark c hmark) hsep hnext
      · let run := c :: rest.takeWhile isRunChar
        let after := rest.dropWhile isRunChar
        have hblank : ¬isBlank c = true := by simp [not_isBlank_of_isRunChar hrun]
        have hruns : runs [] (pad (c :: rest)) = run :: runs [] (pad after) := by
          rw [pad, if_neg (not_paren_of_isRunChar hrun), runs, if_neg hblank,
            runs_pad_run (List.cons_ne_nil _ _) hrest]
          rfl
        have hafter : ∀ d ∈ after, d ∉ reserved := fun d hd =>
          hrest d ((List.dropWhile_sublist _).subset hd)
        have hless : after.length < (c :: rest).length :=
          Nat.lt_succ_of_le (List.dropWhile_sublist _).length_le
        have hall : ∀ d ∈ run, isRunChar d :=
          List.forall_mem_cons.mpr ⟨hrun, fun d hd => List.mem_takeWhile_imp hd⟩
        have hsep : Separated run after := by
          refine ⟨fun _ d hd => ?_, fun hcomma => ?_⟩
          · have hnot := List.head?_dropWhile_not isRunChar rest
            rw [Option.mem_def.mp hd] at hnot
            simpa using hnot
          · obtain ⟨rfl, -⟩ := List.cons.inj hcomma
            exact absurd (by decide) hc
        have hsplit : c :: rest = run ++ after := by
          rw [List.cons_append, List.takeWhile_append_dropWhile]
        rw [hruns, hsplit]
        exact .token run after _ (.run run (List.cons_ne_nil _ _) hall) hsep
          (ih after.length hless after hafter rfl)

-- Without strings, comments and quote marks the tokens of a text are the same whether the text is
-- taken whole or line by line, and so is everything that is read from them.
theorem Reader.plain_text_reads_as_tokens (table : Shorthands) (text : String)
    (h : ∀ c ∈ text.toList, c ∉ reserved) :
    let tokens := tokenize text
    Input.draws (tokens.length + 1) (Input.ofText text) =
        tokens.map (.ok ∘ some) ++ [.ok none] ∧
      parse table text = (readTokens table tokens).1 ∧
      (Input.ofText text).sequence table = tokenSequence table tokens ∧
      parseAll table text = (tokenSequence table tokens).result := by
  intro tokens
  have hitems : Input.textItems text.toList = tokens.map (.token ·.toList) := by
    have htokens : tokens = (runs [] (pad text.toList)).map String.ofList := rfl
    rw [(lexed_runs_pad text.toList h).textItems, htokens, List.map_map]
    refine List.map_congr_left fun token _ => ?_
    exact congrArg Item.token String.toList_ofList.symm
  have hsequence : (Input.ofText text).sequence table = tokenSequence table tokens :=
    Input.sequence_eq_tokenSequence (Input.holds_ofText text) hitems
  refine ⟨?_, Input.parse_eq_readTokens text hitems, hsequence, ?_⟩
  · rw [Input.draws_ofText, itemDraws_eq_iff]
    exact hitems
  · rw [parseAll, Input.readAll_eq_sequence, hsequence]

theorem Reader.plain_text_reads_as_tokens_up_to_stray_close :
    let text := "(f(g -1)\n\t)x )y"
    let tokens := tokenize text
    (∀ c ∈ text.toList, c ∉ reserved) ∧
      tokens = ["(", "f", "(", "g", "-1", ")", ")", "x", ")", "y"] ∧
      (tokenSequence .quotes tokens).forms.map Expr.render = ["(f (g -1))", "x"] ∧
      (tokenSequence .quotes tokens).error? = some .strayClose ∧
      Input.draws (tokens.length + 1) (Input.ofText text) =
        tokens.map (.ok ∘ some) ++ [.ok none] ∧
      parse .quotes text = (readTokens .quotes tokens).1 ∧
      (Input.ofText text).sequence .quotes = tokenSequence .quotes tokens ∧
      parseAll .quotes text = (tokenSequence .quotes tokens).result := by
  intro text tokens
  have hall : (text.toList.all fun c => decide (c ∉ reserved)) = true := by decide +kernel
  have h : ∀ c ∈ text.toList, c ∉ reserved :=
    fun c hc => of_decide_eq_true (List.all_eq_true.mp hall c hc)
  exact ⟨h, by decide +kernel, by decide +kernel, by decide +kernel,
    plain_text_reads_as_tokens .quotes text h⟩

end Lisplet
