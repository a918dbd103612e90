import Lisplet.Proofs.Token
import Lisplet.Reader.Input

namespace Lisplet

-- What reading meets on a line. A string that does not end there is the last of it.
inductive Item where
  | token (text : List Char)
  | unterminated

namespace Input

open Token

def lineItems (line : List Char) : List Item :=
  match _h : scan line with
  | .token text rest => .token text :: lineItems rest
  | .unterminated => [.unterminated]
  | .blank => []
termination_by line.length
decreasing_by exact length_scan_lt ‹_›

def items (input : Input) : List Item := lineItems input.rest ++ input.lines.flatMap lineItems

def textItems (text : List Char) : List Item := (splitLines text).flatMap lineItems

-- A line has a newline at most at its end.
def IsLine (line : List Char) : Prop :=
  ∃ body, '\n' ∉ body ∧ (line = body ∨ line = body ++ ['\n'])

theorem IsLine.eq_nil_of_newline {c : Char} {line : List Char} (h : IsLine (c :: line))
    (hc : c = '\n') : line = [] := by
  obtain ⟨body, hbody, hline⟩ := h
  cases body with
  | nil =>
    simp only [List.nil_append, reduceCtorEq, List.cons.injEq, false_or] at hline
    exact hline.2
  | cons d body =>
    have hd : c = d := by rcases hline with h | h <;> cases h <;> rfl
    exact absurd (by simp [← hd, hc]) hbody

theorem lineItems_of_token {line text rest : List Char} (h : scan line = .token text rest) :
    lineItems line = .token text :: lineItems rest := by
  rw [lineItems]
  split <;> simp_all

theorem lineItems_of_blank {line : List Char} (h : scan line = .blank) : lineItems line = [] := by
  rw [lineItems]
  split <;> simp_all

theorem lineItems_of_unterminated {line : List Char} (h : scan line = .unterminated) :
    lineItems line = [.unterminated] := by
  rw [lineItems]
  split <;> simp_all

theorem lineItems_congr {line other : List Char} (h : scan line = scan other) :
    lineItems line = lineItems other := by
  cases hscan : scan other with
  | token text rest => rw [lineItems_of_token (h.trans hscan), lineItems_of_token hscan]
  | blank => rw [lineItems_of_blank (h.trans hscan), lineItems_of_blank hscan]
  | unterminated => rw [lineItems_of_unterminated (h.trans hscan), lineItems_of_unterminated hscan]

-- White space at the end of a line is no item, and it ends none that would go on without it.
theorem lineItems_append_blank {c : Char} {line : List Char} (hc : isBlank c) (h : '\n' ∉ line) :
    lineItems (line ++ [c]) = lineItems line := by
  fun_induction lineItems line with
  | case1 line text rest hscan ih =>
    have hend := scan_append_blank hc h
    rw [hscan] at hend
    obtain ⟨-, hrest⟩ := isToken_of_scan h hscan
    rw [lineItems_of_token hend]
    by_cases hnewline : c = '\n'
    · have hdropped : restOfLine [c] = [] := by rw [hnewline]; rfl
      rw [hdropped, List.append_nil]
    · have hkept : restOfLine [c] = [c] := restOfLine_eq_self (by simpa using Ne.symm hnewline)
      rw [hkept, ih hrest]
  | case2 line hscan =>
    have hend := scan_append_blank hc h
    rw [hscan] at hend
    exact lineItems_of_unterminated hend
  | case3 line hscan =>
    have hend := scan_append_blank hc h
    rw [hscan] at hend
    exact lineItems_of_blank hend

-- Scanning drops the newline of a line, and nothing is lost by that.
theorem lineItems_restOfLine {line : List Char} (h : IsLine line) :
    lineItems (restOfLine line) = lineItems line := by
  obtain ⟨body, hbody, rfl | rfl⟩ := h
  · rw [restOfLine_eq_self hbody]
  · have hnewline : restOfLine ['\n'] = [] := rfl
    rw [restOfLine_append hbody, restOfLine_eq_self hbody, hnewline, List.append_nil,
      lineItems_append_blank rfl hbody]

-- The tokens of a line are of the kinds that there are.
theorem isToken_of_mem_lineItems {line text : List Char} (hline : IsLine line)
    (h : .token text ∈ lineItems line) : IsToken text := by
  obtain ⟨body, hbody, hitems⟩ : ∃ body, '\n' ∉ body ∧ lineItems line = lineItems body := by
    obtain ⟨body, hbody, rfl | rfl⟩ := hline
    · exact ⟨line, hbody, rfl⟩
    · exact ⟨body, hbody, lineItems_append_blank rfl hbody⟩
  rw [hitems] at h
  clear hitems
  fun_induction lineItems body with
  | case1 body found rest hscan ih =>
    obtain ⟨hfound, hrest⟩ := isToken_of_scan hbody hscan
    rcases List.mem_cons.mp h with heq | h
    · cases heq
      exact hfound
    · exact ih h hrest
  | case2 => simp at h
  | case3 => cases h

theorem splitLines_eq_nil_iff (text : List Char) : splitLines text = [] ↔ text = [] := by
  cases text with
  | nil => simp [splitLines]
  | cons c text =>
    simp only [splitLines]
    split
    · simp
    · split <;> simp

theorem head_splitLines {text line : List Char} {lines : List (List Char)}
    (h : splitLines text = line :: lines) : line.head? = text.head? := by
  cases text with
  | nil => cases h
  | cons c text =>
    simp only [splitLines] at h
    split at h
    · cases h
      rfl
    · split at h <;> cases h <;> rfl

theorem isLine_of_mem_splitLines {text line : List Char} (h : line ∈ splitLines text) :
    IsLine line ∧ line ≠ [] := by
  induction text generalizing line with
  | nil => cases h
  | cons c text ih =>
    simp only [splitLines] at h
    split at h
    · next hc =>
      rcases List.mem_cons.mp h with rfl | h
      · exact ⟨⟨[], by simp, .inr (by simp [hc])⟩, by simp⟩
      · exact ih h
    · next hc =>
      split at h
      · rw [List.mem_singleton.mp h]
        exact ⟨⟨[c], by simpa using Ne.symm hc, .inl rfl⟩, by simp⟩
      · next first lines hlines =>
        rcases List.mem_cons.mp h with rfl | h
        · have hmem : first ∈ splitLines text := by simp [hlines]
          obtain ⟨⟨body, hbody, hfirst⟩, -⟩ := ih hmem
          refine ⟨⟨c :: body, by simp [hbody, Ne.symm hc], ?_⟩, by simp⟩
          rcases hfirst with rfl | rfl
          · exact .inl rfl
          · exact .inr rfl
        · exact ih (by simp [hlines, h])

theorem isToken_of_mem_textItems {text token : List Char} (h : .token token ∈ textItems text) :
    IsToken token := by
  obtain ⟨line, hline, hmem⟩ := List.mem_flatMap.mp h
  exact isToken_of_mem_lineItems (isLine_of_mem_splitLines hline).1 hmem

-- Lines that have all ended stay as they are in front of other text.
theorem splitLines_append_of_ended {text : List Char}
    (h : text = [] ∨ text.getLast? = some '\n') (rest : List Char) :
    splitLines (text ++ rest) = splitLines text ++ splitLines rest := by
  induction text with
  | nil => rfl
  | cons c text ih =>
    have hend : (c :: text).getLast? = some '\n' := h.resolve_left (List.cons_ne_nil c text)
    by_cases hempty : text = []
    · have hc : c = '\n' := by simpa [hempty] using hend
      simp [hempty, hc, splitLines]
    have hlater : text.getLast? = some '\n' := by
      rwa [List.getLast?_cons_of_ne_nil hempty] at hend
    rw [List.cons_append, splitLines, splitLines, ih (.inr hlater)]
    split
    · rfl
    · cases hlines : splitLines text with
      | nil => exact absurd ((splitLines_eq_nil_iff text).mp hlines) hempty
      | cons line lines => rfl

-- Text without a newline lengthens the first line of what follows it.
theorem splitLines_append {text : List Char} (hne : text ≠ []) (h : '\n' ∉ text)
    (rest : List Char) :
    splitLines (text ++ rest) = match splitLines rest with
      | [] => [text]
      | line :: lines => (text ++ line) :: lines := by
  induction text with
  | nil => exact absurd rfl hne
  | cons c text ih =>
    simp only [List.mem_cons, not_or] at h
    simp only [List.cons_append, splitLines, Ne.symm h.1, if_false]
    cases text with
    | nil =>
      rw [List.nil_append]
      cases splitLines rest <;> rfl
    | cons d text =>
      rw [ih (by simp) h.2]
      cases splitLines rest <;> rfl

theorem splitLines_ended {body : List Char} (h : '\n' ∉ body) (rest : List Char) :
    splitLines (body ++ '\n' :: rest) = (body ++ ['\n']) :: splitLines rest := by
  have hrest : splitLines ('\n' :: rest) = ['\n'] :: splitLines rest := rfl
  by_cases hempty : body = []
  · rw [hempty]
    exact hrest
  · rw [splitLines_append hempty h, hrest]

theorem textItems_of_line {line : List Char} (h : '\n' ∉ line) : textItems line = lineItems line := by
  by_cases hempty : line = []
  · rw [hempty, lineItems_of_blank rfl]
    rfl
  · have hsplit := splitLines_append hempty h []
    rw [List.append_nil] at hsplit
    rw [textItems, hsplit]
    exact List.append_nil _

-- Items are found in front of the rest of a line independently of it, so also in front of the rest
-- of a text.
theorem textItems_append {rest : List Char} (text : List Char) (front : List Item) (hne : text ≠ [])
    (h : '\n' ∉ text)
    (hline : ∀ line, IsLine line → line.head? = rest.head? →
      lineItems (text ++ line) = front ++ lineItems line) :
    textItems (text ++ rest) = front ++ textItems rest := by
  have hnil : lineItems [] = [] := lineItems_of_blank rfl
  simp only [textItems, splitLines_append hne h]
  cases hlines : splitLines rest with
  | nil =>
    have hempty := (splitLines_eq_nil_iff rest).mp hlines
    have := hline [] ⟨[], by simp, .inl rfl⟩ (by simp [hempty])
    simpa [hnil] using this
  | cons line lines =>
    have hmem : line ∈ splitLines rest := by simp [hlines]
    obtain ⟨hisLine, -⟩ := isLine_of_mem_splitLines hmem
    simp [hline line hisLine (head_splitLines hlines)]

theorem textItems_newline (rest : List Char) : textItems ('\n' :: rest) = textItems rest := by
  have : lineItems ['\n'] = [] := lineItems_of_blank rfl
  simp [textItems, splitLines, this]

theorem textItems_blank {c : Char} (h : isBlank c) (rest : List Char) :
    textItems (c :: rest) = textItems rest := by
  by_cases hc : c = '\n'
  · rw [hc, textItems_newline]
  · refine textItems_append [c] [] (by simp) (by simpa using Ne.symm hc) fun line _ _ => ?_
    exact lineItems_congr (scan_blank h line)

theorem textItems_comment {body rest : List Char} (hbody : '\n' ∉ body)
    (hrest : ∀ c ∈ rest.head?, c = '\n') :
    textItems (';' :: (body ++ rest)) = textItems rest := by
  refine textItems_append (';' :: body) [] (by simp) (by simp [hbody])
    fun line hline hhead => ?_
  have hempty : lineItems line = [] := by
    cases line with
    | nil => exact lineItems_of_blank rfl
    | cons c line =>
      have hc := hrest c (by simp [← hhead])
      rw [lineItems_congr (scan_blank (by simp [hc, isBlank]) line), hline.eq_nil_of_newline hc]
      exact lineItems_of_blank rfl
  rw [hempty]
  exact lineItems_of_blank (scan_comment _)

theorem textItems_token {token rest : List Char} (h : IsToken token) (hsep : Separated token rest) :
    textItems (token ++ rest) = .token token :: textItems rest := by
  refine textItems_append token [.token token] h.ne_nil h.newline_notMem fun line hline hhead => ?_
  have hsep' : Separated token line := by
    refine ⟨?_, ?_⟩ <;> rw [hhead]
    · exact hsep.run
    · exact hsep.comma
  rw [lineItems_of_token (scan_token h hsep'), lineItems_restOfLine hline]
  rfl

end Input

-- A text as a sequence of tokens with layout around them.
inductive Lexed : List Char → List (List Char) → Prop
  | nil : Lexed [] []
  | blank (c : Char) (text : List Char) (tokens : List (List Char)) (hc : isBlank c)
      (htext : Lexed text tokens) : Lexed (c :: text) tokens
  | comment (body text : List Char) (tokens : List (List Char)) (hbody : '\n' ∉ body)
      (hend : ∀ c ∈ text.head?, c = '\n') (htext : Lexed text tokens) :
      Lexed (';' :: (body ++ text)) tokens
  | token (token text : List Char) (tokens : List (List Char)) (htoken : Token.IsToken token)
      (hsep : Token.Separated token text) (htext : Lexed text tokens) :
      Lexed (token ++ text) (token :: tokens)

theorem Lexed.textItems {text : List Char} {tokens : List (List Char)} (h : Lexed text tokens) :
    Input.textItems text = tokens.map .token := by
  induction h with
  | nil => rfl
  | blank c text tokens hc _ ih => rw [Input.textItems_blank hc, ih]
  | comment body text tokens hbody hend _ ih => rw [Input.textItems_comment hbody hend, ih]
  | token token text tokens htoken hsep _ ih => rw [Input.textItems_token htoken hsep, ih]; rfl

end Lisplet
