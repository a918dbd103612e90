import Lisplet.Proofs.Text.CharClass
import Mathlib.Data.List.TakeWhile

namespace Lisplet.Token

-- What may stand between the quotes of a string: no newline, no quote of its own, and a backslash
-- only in front of another character.
inductive StringBody : List Char → Prop
  | nil : StringBody []
  | escaped (c : Char) (rest : List Char) (hc : c ≠ '\n') (hrest : StringBody rest) :
      StringBody ('\\' :: c :: rest)
  | plain (c : Char) (rest : List Char) (hquote : c ≠ '"') (hescape : c ≠ '\\') (hc : c ≠ '\n')
      (hrest : StringBody rest) : StringBody (c :: rest)

inductive IsToken : List Char → Prop
  | mark (c : Char) (hc : isMark c) : IsToken [c]
  | splice : IsToken [',', '@']
  | string (body : List Char) (hbody : StringBody body) : IsToken ('"' :: (body ++ ['"']))
  | run (chars : List Char) (hne : chars ≠ []) (hrun : ∀ c ∈ chars, isRunChar c) : IsToken chars

-- A run ends where it could not go on, and a comma does not swallow an at-sign.
structure Separated (token rest : List Char) : Prop where
  run : (∀ c ∈ token, isRunChar c) → ∀ c ∈ rest.head?, isRunChar c = false
  comma : token = [','] → rest.head? ≠ some '@'

theorem StringBody.newline_notMem {body : List Char} (h : StringBody body) : '\n' ∉ body := by
  induction h with
  | nil => simp
  | escaped c rest hc _ ih => simp [ih, Ne.symm hc]
  | plain c rest _ _ hc _ ih => simp [ih, Ne.symm hc]

theorem IsToken.newline_notMem {token : List Char} (h : IsToken token) : '\n' ∉ token := by
  cases h with
  | mark c hc =>
    rintro hm
    simp only [List.mem_singleton] at hm
    subst hm
    simp [isMark] at hc
  | splice => simp
  | string body hbody => simp [hbody.newline_notMem]
  | run chars hne hrun =>
    intro hm
    simpa [isRunChar, isBlank] using hrun '\n' hm

theorem IsToken.ne_nil {token : List Char} (h : IsToken token) : token ≠ [] := by
  cases h with
  | run chars hne hrun => exact hne
  | _ => simp

-- A backslash is neither the last character nor in front of another one, so it is none.
theorem ne_escape {c : Char} {rest : List Char} (hend : c = '\\' → rest = [] → False)
    (hescape : ∀ d tail, c = '\\' → rest = d :: tail → False) : c ≠ '\\' := by
  rintro rfl
  cases rest with
  | nil => exact hend rfl rfl
  | cons d tail => exact hescape d tail rfl rfl

theorem stringTail?_plain {c : Char} (rest : List Char) (hquote : c ≠ '"') (hescape : c ≠ '\\') :
    stringTail? (c :: rest) = (stringTail? rest).map fun (tail, rest) => (c :: tail, rest) :=
  stringTail?.eq_5 c rest hquote (fun h _ => hescape h) fun _ _ h _ => hescape h

theorem stringTail?_append {body : List Char} (rest : List Char) (h : StringBody body) :
    stringTail? (body ++ '"' :: rest) = some (body ++ ['"'], rest) := by
  induction h with
  | nil => simp [stringTail?]
  | escaped c tail hc _ ih => simp [stringTail?, hc, ih]
  | plain c tail hquote hescape hc _ ih =>
    rw [List.cons_append, stringTail?_plain _ hquote hescape, ih]
    rfl

-- What a text without its newline loses to a string is nothing but the string.
theorem eq_append_of_stringTail? {chars tail rest : List Char}
    (h : stringTail? chars = some (tail, rest)) : chars = tail ++ rest := by
  fun_induction stringTail? chars generalizing tail rest with
  | case1 => cases h
  | case2 chars =>
    cases h
    rfl
  | case3 => cases h
  | case4 => cases h
  | case5 c chars hc ih =>
    obtain ⟨⟨tail, rest⟩, hs, he⟩ := Option.map_eq_some_iff.mp h
    cases he
    rw [ih hs]
    rfl
  | case6 c chars hquote hend hescape ih =>
    obtain ⟨⟨tail, rest⟩, hs, he⟩ := Option.map_eq_some_iff.mp h
    cases he
    rw [ih hs]
    rfl

theorem not_quote_of_isBlank {c : Char} (h : isBlank c) : c ≠ '"' ∧ c ≠ '\\' := by
  constructor <;> rintro rfl <;> simp [isBlank] at h

-- White space closes no string.
theorem stringTail?_append_blank {c : Char} {chars : List Char} (hc : isBlank c)
    (h : '\n' ∉ chars) :
    stringTail? (chars ++ [c]) =
      (stringTail? chars).map fun (tail, rest) => (tail, rest ++ [c]) := by
  fun_induction stringTail? chars with
  | case1 =>
    obtain ⟨hquote, hescape⟩ := not_quote_of_isBlank hc
    simp [stringTail?, stringTail?_plain [] hquote hescape]
  | case2 rest => simp [stringTail?]
  | case3 => simp [stringTail?]
  | case4 => simp at h
  | case5 d rest hd ih =>
    simp only [List.mem_cons, not_or] at h
    simp [stringTail?, hd, ih h.2.2, Function.comp_def]
  | case6 d rest hquote hend hescape ih =>
    simp only [List.mem_cons, not_or] at h
    rw [List.cons_append, stringTail?_plain _ hquote (ne_escape hend hescape), ih h.2,
      Option.map_map, Option.map_map]
    rfl

theorem restOfLine_eq_self {line : List Char} (h : '\n' ∉ line) : restOfLine line = line := by
  refine List.takeWhile_eq_self_iff.mpr fun c hc => ?_
  rw [bne_iff_ne]
  rintro rfl
  exact h hc

theorem restOfLine_append {line : List Char} (h : '\n' ∉ line) (rest : List Char) :
    restOfLine (line ++ rest) = restOfLine line ++ restOfLine rest := by
  rw [restOfLine_eq_self h]
  refine List.takeWhile_append_of_pos fun c hc => ?_
  rw [bne_iff_ne]
  rintro rfl
  exact h hc

-- The first character that is not blank decides what is scanned.
theorem class_cases (c : Char) : isBlank c ∨ isMark c ∨ c = '"' ∨ c = ';' ∨ isRunChar c := by
  by_cases hblank : isBlank c = true
  · exact .inl hblank
  by_cases hmark : isMark c = true
  · exact .inr (.inl hmark)
  by_cases hquote : c = '"'
  · exact .inr (.inr (.inl hquote))
  by_cases hcomment : c = ';'
  · exact .inr (.inr (.inr (.inl hcomment)))
  · simp [isRunChar, hblank, hmark, hquote, hcomment]

theorem scan_blank {c : Char} (h : isBlank c) (line : List Char) :
    scan (c :: line) = scan line := by
  simp [scan, h]

theorem scan_comment (line : List Char) : scan (';' :: line) = .blank := by
  simp [scan, isBlank, isMark]

theorem scan_splice (rest : List Char) :
    scan (',' :: '@' :: rest) = .token [',', '@'] (restOfLine rest) := by
  simp [scan, isBlank]

theorem scan_mark {c : Char} (rest : List Char) (hc : isMark c)
    (hcomma : c = ',' → rest.head? ≠ some '@') :
    scan (c :: rest) = .token [c] (restOfLine rest) := by
  have hblank : isBlank c = false := by
    simp only [isMark_iff, List.mem_cons, List.not_mem_nil, or_false] at hc
    rcases hc with rfl | rfl | rfl | rfl | rfl <;> rfl
  have hmatch : ∀ tail, c = ',' → rest ≠ '@' :: tail := by
    rintro tail hc rfl
    exact hcomma hc rfl
  simp [scan, hblank, hc]

theorem scan_quote (rest : List Char) :
    scan ('"' :: rest) = match stringTail? rest with
      | some (tail, rest) => .token ('"' :: tail) (restOfLine rest)
      | none => .unterminated := by
  simp only [scan, List.dropWhile_cons_of_neg (show ¬isBlank '"' = true by decide)]
  rfl

theorem scan_run {c : Char} (rest : List Char) (hc : isRunChar c) :
    scan (c :: rest) =
      .token (c :: rest.takeWhile isRunChar) (restOfLine (rest.dropWhile isRunChar)) := by
  simp only [isRunChar, Bool.not_eq_true', Bool.or_eq_false_iff, beq_eq_false_iff_ne] at hc
  obtain ⟨⟨⟨hblank, hmark⟩, hquote⟩, hcomment⟩ := hc
  have hcomma : c ≠ ',' := by
    rintro rfl
    simp [isMark] at hmark
  simp [scan, hblank, hmark, hquote, hcomment, hcomma]

-- A token in front is found whole, and what follows it on the line is kept.
theorem scan_token {token rest : List Char} (h : IsToken token) (hsep : Separated token rest) :
    scan (token ++ rest) = .token token (restOfLine rest) := by
  cases h with
  | mark c hc => exact scan_mark rest hc fun hcomma => hsep.comma (by rw [hcomma])
  | splice => exact scan_splice rest
  | string body hbody => simp [scan_quote, stringTail?_append rest hbody]
  | run chars hne hrun =>
    obtain ⟨c, tail, rfl⟩ := List.exists_cons_of_ne_nil hne
    obtain ⟨htake, hdrop⟩ :=
      takeWhile_append_rest (fun d hd => hrun d (List.mem_cons_of_mem c hd)) (hsep.run hrun)
    rw [List.cons_append, scan_run _ (hrun c List.mem_cons_self), htake, hdrop]

theorem takeWhile_isRunChar_append_blank {c : Char} (hc : isBlank c) (chars : List Char) :
    (chars ++ [c]).takeWhile isRunChar = chars.takeWhile isRunChar ∧
      (chars ++ [c]).dropWhile isRunChar = chars.dropWhile isRunChar ++ [c] := by
  have hsplit := List.takeWhile_append_dropWhile (p := isRunChar) (l := chars)
  have hhead : ∀ d ∈ (chars.dropWhile isRunChar ++ [c]).head?, isRunChar d = false := by
    cases hdrop : chars.dropWhile isRunChar with
    | nil =>
      rintro _ ⟨⟩
      exact isRunChar_eq_false_of_isBlank hc
    | cons d rest =>
      rintro _ ⟨⟩
      have := List.head_dropWhile_not isRunChar (l := chars) (by simp [hdrop])
      simpa [hdrop] using this
  have hrun : ∀ d ∈ chars.takeWhile isRunChar, isRunChar d := fun d hd => List.mem_takeWhile_imp hd
  have h := takeWhile_append_rest hrun hhead
  rwa [← List.append_assoc, hsplit] at h

-- White space at the end of a line hides nothing. It is left after the last token, unless it is
-- the newline.
theorem scan_append_blank {c : Char} {line : List Char} (hc : isBlank c) (h : '\n' ∉ line) :
    scan (line ++ [c]) = match scan line with
      | .token text rest => .token text (rest ++ restOfLine [c])
      | .blank => .blank
      | .unterminated => .unterminated := by
  induction line with
  | nil => rw [List.nil_append, scan_blank hc]; rfl
  | cons d rest ih =>
    simp only [List.mem_cons, not_or] at h
    rw [List.cons_append]
    rcases class_cases d with hd | hd | rfl | rfl | hd
    · rw [scan_blank hd, scan_blank hd, ih h.2]
    · by_cases hsplice : d = ',' ∧ rest.head? = some '@'
      · obtain ⟨rfl, hhead⟩ := hsplice
        obtain ⟨tail, rfl⟩ := List.head?_eq_some_iff.mp hhead
        rw [List.cons_append, scan_splice, scan_splice,
          restOfLine_append (List.not_mem_of_not_mem_cons h.2)]
      · rw [not_and] at hsplice
        have hsplice' : d = ',' → (rest ++ [c]).head? ≠ some '@' := by
          intro hcomma
          cases rest with
          | nil =>
            rintro ⟨⟩
            simp [isBlank] at hc
          | cons e tail => exact hsplice hcomma
        rw [scan_mark _ hd hsplice, scan_mark _ hd hsplice', restOfLine_append h.2]
    · rw [scan_quote, scan_quote, stringTail?_append_blank hc h.2]
      cases hs : stringTail? rest with
      | none => rfl
      | some found =>
        obtain ⟨tail, after⟩ := found
        have hafter : '\n' ∉ after := by
          intro hm
          exact h.2 (by rw [eq_append_of_stringTail? hs]; exact List.mem_append_right _ hm)
        simp [restOfLine_append hafter]
    · rw [scan_comment, scan_comment]
    · obtain ⟨htake, hdrop⟩ := takeWhile_isRunChar_append_blank hc rest
      have hafter : '\n' ∉ rest.dropWhile isRunChar := fun hm =>
        h.2 ((List.dropWhile_sublist _).subset hm)
      rw [scan_run _ hd, scan_run _ hd, htake, hdrop, restOfLine_append hafter]

-- What closes a string is a body and a quote.
theorem exists_body_of_stringTail? {chars tail rest : List Char} (hline : '\n' ∉ chars)
    (h : stringTail? chars = some (tail, rest)) :
    ∃ body, StringBody body ∧ tail = body ++ ['"'] := by
  fun_induction stringTail? chars generalizing tail rest with
  | case1 => cases h
  | case2 chars =>
    cases h
    exact ⟨[], .nil, rfl⟩
  | case3 => cases h
  | case4 => cases h
  | case5 c chars hc ih =>
    obtain ⟨⟨tail, rest⟩, hs, he⟩ := Option.map_eq_some_iff.mp h
    cases he
    simp only [List.mem_cons, not_or] at hline
    obtain ⟨body, hbody, rfl⟩ := ih hline.2.2 hs
    exact ⟨'\\' :: c :: body, .escaped c body hc hbody, rfl⟩
  | case6 c chars hquote hend hescape ih =>
    obtain ⟨⟨tail, rest⟩, hs, he⟩ := Option.map_eq_some_iff.mp h
    cases he
    simp only [List.mem_cons, not_or] at hline
    obtain ⟨body, hbody, rfl⟩ := ih hline.2 hs
    have hplain : StringBody (c :: body) :=
      .plain c body hquote (ne_escape hend hescape) (Ne.symm hline.1) hbody
    exact ⟨c :: body, hplain, rfl⟩

-- Whatever is found on a line is a token.
theorem isToken_of_scan {line text rest : List Char} (hline : '\n' ∉ line)
    (h : scan line = .token text rest) : IsToken text ∧ '\n' ∉ rest := by
  have hrest (chars : List Char) : '\n' ∉ restOfLine chars := fun hmem => by
    simpa using List.mem_takeWhile_imp hmem
  induction line with
  | nil => cases h
  | cons c tail ih =>
    simp only [List.mem_cons, not_or] at hline
    rcases class_cases c with hc | hc | rfl | rfl | hc
    · rw [scan_blank hc] at h
      exact ih hline.2 h
    · by_cases hsplice : c = ',' ∧ tail.head? = some '@'
      · obtain ⟨rfl, hhead⟩ := hsplice
        obtain ⟨tail, rfl⟩ := List.head?_eq_some_iff.mp hhead
        rw [scan_splice] at h
        cases h
        exact ⟨.splice, hrest _⟩
      · rw [scan_mark _ hc (not_and.mp hsplice)] at h
        cases h
        exact ⟨.mark c hc, hrest _⟩
    · rw [scan_quote] at h
      split at h
      · next hstring =>
        cases h
        obtain ⟨body, hbody, rfl⟩ := exists_body_of_stringTail? hline.2 hstring
        exact ⟨.string body hbody, hrest _⟩
      · cases h
    · rw [scan_comment] at h
      cases h
    · rw [scan_run _ hc] at h
      cases h
      refine ⟨.run _ (by simp) fun d hd => ?_, hrest _⟩
      rcases List.mem_cons.mp hd with rfl | hd
      · exact hc
      · exact List.mem_takeWhile_imp hd

end Lisplet.Token
