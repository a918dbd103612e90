import Lisplet.Proofs.Reader.Queue

namespace Lisplet

open Token

-- White space and comments in front of the rest of a text. A comment goes on to the next newline
-- and leaves it, or to the end of the text.
inductive IsGap (rest : List Char) : List Char → Prop
  | nil : IsGap rest []
  | blank (c : Char) (gap : List Char) (hc : isBlank c) (hgap : IsGap rest gap) :
      IsGap rest (c :: gap)
  | comment (body gap : List Char) (hbody : '\n' ∉ body)
      (hend : ∀ c ∈ (gap ++ rest).head?, c = '\n') (hgap : IsGap rest gap) :
      IsGap rest (';' :: (body ++ gap))

def IsRun (token : List Char) : Prop := ∀ c ∈ token, isRunChar c

-- Tokens with the gap after each of them.
def joined : List (List Char × List Char) → List Char
  | [] => []
  | (token, gap) :: parts => token ++ (gap ++ joined parts)

-- Two runs stand apart, and a comma does not stand right in front of an at-sign.
inductive IsJoint : List (List Char × List Char) → Prop
  | nil : IsJoint []
  | cons (token gap : List Char) (parts : List (List Char × List Char)) (htoken : IsToken token)
      (hgap : IsGap (joined parts) gap)
      (hruns : ∀ next ∈ parts.head?, IsRun token → IsRun next.1 → gap ≠ [])
      (hcomma : token = [','] → (gap ++ joined parts).head? ≠ some '@')
      (hparts : IsJoint parts) : IsJoint ((token, gap) :: parts)

-- A text is a gap and then these tokens, each with a gap after it.
def Decomposes (text : List Char) (tokens : List (List Char)) : Prop :=
  ∃ lead parts, text = lead ++ joined parts ∧ IsGap (joined parts) lead ∧ IsJoint parts ∧
    tokens = parts.map Prod.fst

theorem IsGap.lexed {gap rest : List Char} {tokens : List (List Char)} (h : IsGap rest gap)
    (hrest : Lexed rest tokens) : Lexed (gap ++ rest) tokens := by
  induction h with
  | nil => exact hrest
  | blank c gap hc _ ih => exact .blank c _ tokens hc ih
  | comment body gap hbody hend _ ih => simpa using Lexed.comment body _ tokens hbody hend ih

theorem IsGap.not_isRunChar_head {gap rest : List Char} (h : IsGap rest gap) :
    ∀ c ∈ gap.head?, isRunChar c = false := by
  cases h with
  | nil => simp
  | blank c gap hc _ =>
    rintro _ ⟨⟩
    exact isRunChar_eq_false_of_isBlank hc
  | comment body gap _ _ _ =>
    rintro _ ⟨⟩
    rfl

theorem not_isRunChar_of_isMark {c : Char} (h : isMark c) : isRunChar c = false := by
  simp [isRunChar, h]

-- The first character of a token that is not a run could not begin one.
theorem Token.IsToken.isRun_or_head {token : List Char} (h : IsToken token) :
    IsRun token ∨ ∀ c ∈ token.head?, isRunChar c = false := by
  cases h with
  | mark c hc =>
    right
    rintro _ ⟨⟩
    exact not_isRunChar_of_isMark hc
  | splice =>
    right
    rintro _ ⟨⟩
    rfl
  | string body hbody =>
    right
    rintro _ ⟨⟩
    rfl
  | run chars hne hrun => exact .inl hrun

theorem not_isRunChar_head_joined {parts : List (List Char × List Char)} (h : IsJoint parts)
    (hnext : ∀ next ∈ parts.head?, ¬IsRun next.1) :
    ∀ c ∈ (joined parts).head?, isRunChar c = false := by
  cases h with
  | nil => simp [joined]
  | cons token gap parts htoken =>
    have hnot : ¬IsRun token := hnext (token, gap) rfl
    have hhead := htoken.isRun_or_head.resolve_left hnot
    obtain ⟨c, tail, rfl⟩ := List.exists_cons_of_ne_nil htoken.ne_nil
    simpa [joined] using hhead

theorem IsJoint.lexed {parts : List (List Char × List Char)} (h : IsJoint parts) :
    Lexed (joined parts) (parts.map Prod.fst) := by
  induction h with
  | nil => exact .nil
  | cons token gap parts htoken hgap hruns hcomma hparts ih =>
    refine .token token _ _ htoken ⟨fun hrun => ?_, hcomma⟩ (hgap.lexed ih)
    by_cases hempty : gap = []
    · have hnext : ∀ next ∈ parts.head?, ¬IsRun next.1 := fun next hmem hnextRun =>
        hruns next hmem hrun hnextRun hempty
      rw [hempty]
      exact not_isRunChar_head_joined hparts hnext
    · have hhead := hgap.not_isRunChar_head
      rw [List.head?_append_of_ne_nil _ hempty]
      exact hhead

-- Both ways to take a text apart come to the same tokens.
theorem decomposes_iff_lexed {text : List Char} {tokens : List (List Char)} :
    Decomposes text tokens ↔ Lexed text tokens := by
  constructor
  · rintro ⟨lead, parts, rfl, hlead, hparts, rfl⟩
    exact hlead.lexed hparts.lexed
  · intro h
    induction h with
    | nil => exact ⟨[], [], rfl, .nil, .nil, rfl⟩
    | blank c text tokens hc _ ih =>
      obtain ⟨lead, parts, rfl, hlead, hparts, rfl⟩ := ih
      exact ⟨c :: lead, parts, rfl, .blank c lead hc hlead, hparts, rfl⟩
    | comment body text tokens hbody hend _ ih =>
      obtain ⟨lead, parts, rfl, hlead, hparts, rfl⟩ := ih
      have hcomment := IsGap.comment body lead hbody hend hlead
      exact ⟨';' :: (body ++ lead), parts, by simp, hcomment, hparts, rfl⟩
    | token token text tokens htoken hsep _ ih =>
      obtain ⟨lead, parts, rfl, hlead, hparts, rfl⟩ := ih
      have hruns : ∀ next ∈ parts.head?, IsRun token → IsRun next.1 → lead ≠ [] := by
        rintro ⟨next, gap⟩ hmem hrun hnextRun rfl
        cases hparts with
        | nil => cases hmem
        | cons next gap parts hnext =>
          cases hmem
          obtain ⟨c, tail, rfl⟩ := List.exists_cons_of_ne_nil hnext.ne_nil
          have hfirst := hsep.run hrun c (by simp [joined])
          rw [hnextRun c List.mem_cons_self] at hfirst
          cases hfirst
      have hjoint := IsJoint.cons token lead parts htoken hlead hruns hsep.comma hparts
      exact ⟨[], (token, lead) :: parts, by simp [joined], .nil, hjoint, rfl⟩

namespace Input

theorem flatten_splitLines (text : List Char) : (splitLines text).flatten = text := by
  induction text with
  | nil => rfl
  | cons c text ih =>
    rw [splitLines]
    split
    · rw [List.flatten_cons, ih]
      rfl
    · split
      · next hlines =>
        rw [hlines] at ih
        rw [← ih]
        rfl
      · next line lines hlines =>
        rw [hlines] at ih
        rw [← ih]
        rfl

-- The line on which a string has no end holds nothing after it.
theorem unterminated_mem_textItems {rest : List Char} (h : ¬ClosesString rest) :
    .unterminated ∈ textItems ('"' :: rest) := by
  have hfirst : ∃ line lines, splitLines ('"' :: rest) = ('"' :: line) :: lines ∧
      ∃ later, rest = line ++ later := by
    have hflatten := flatten_splitLines rest
    cases hlines : splitLines rest with
    | nil =>
      rw [hlines] at hflatten
      exact ⟨[], [], by simp [splitLines, hlines], rest, rfl⟩
    | cons line lines =>
      rw [hlines] at hflatten
      exact ⟨line, lines, by simp [splitLines, hlines], lines.flatten, hflatten.symm⟩
  obtain ⟨line, lines, hlines, later, rfl⟩ := hfirst
  have hopen : ¬ClosesString line := by
    rintro ⟨body, after, hbody, rfl⟩
    exact h ⟨body, after ++ later, hbody, by simp⟩
  have hmem : '"' :: line ∈ splitLines ('"' :: (line ++ later)) := by simp [hlines]
  have hitems : lineItems ('"' :: line) = [.unterminated] :=
    lineItems_of_itemized (isLine_of_mem_splitLines hmem).1 (.unterminated line hopen)
  refine List.mem_flatMap.mpr ⟨_, hmem, ?_⟩
  rw [hitems]
  exact List.mem_singleton_self _

-- After each piece of layout and each token there is less of the text.
theorem lexed_or_unterminated (text : List Char) :
    (∃ tokens, Lexed text tokens) ∨ .unterminated ∈ textItems text := by
  induction hlength : text.length using Nat.strongRecOn generalizing text with
  | ind length ih =>
    subst hlength
    cases text with
    | nil => exact .inl ⟨[], .nil⟩
    | cons c rest =>
      rcases blank_or_token c rest with hc | rfl | ⟨rfl, hopen⟩ | ⟨token, line, htoken, hsep, heq⟩
      · rcases ih rest.length (Nat.lt_succ_self _) rest rfl with ⟨tokens, h⟩ | h
        · exact .inl ⟨tokens, .blank c rest tokens hc h⟩
        · rw [textItems_blank hc]
          exact .inr h
      · let body := rest.takeWhile (· != '\n')
        let after := rest.dropWhile (· != '\n')
        have hbody : '\n' ∉ body := fun hmem => by simpa using List.mem_takeWhile_imp hmem
        have hend : ∀ d ∈ after.head?, d = '\n' := fun d hd => by
          have hnot := List.head?_dropWhile_not (· != '\n') rest
          rw [Option.mem_def.mp hd] at hnot
          simpa using hnot
        have hsplit : rest = body ++ after := List.takeWhile_append_dropWhile.symm
        have hless : after.length < (';' :: rest).length :=
          Nat.lt_succ_of_le (List.dropWhile_sublist _).length_le
        rw [hsplit]
        rcases ih after.length hless after rfl with ⟨tokens, h⟩ | h
        · exact .inl ⟨tokens, .comment body after tokens hbody hend h⟩
        · rw [textItems_comment hbody hend]
          exact .inr h
      · exact .inr (unterminated_mem_textItems hopen)
      · have hpos : 0 < token.length := List.length_pos_iff.mpr htoken.ne_nil
        have hless : line.length < (c :: rest).length := by
          rw [heq, List.length_append]
          omega
        rw [heq]
        rcases ih line.length hless line rfl with ⟨tokens, h⟩ | h
        · exact .inl ⟨token :: tokens, .token token line tokens htoken hsep h⟩
        · rw [textItems_token htoken hsep]
          exact .inr (List.mem_cons_of_mem _ h)

theorem map_token_inj {tokens others : List (List Char)}
    (h : tokens.map Item.token = others.map Item.token) : tokens = others :=
  (List.map_inj_right fun _ _ => Item.token.inj).mp h

-- The items of a text are its tokens and nothing else exactly where it can be taken apart.
theorem lexed_iff_textItems {text : List Char} {tokens : List (List Char)} :
    Lexed text tokens ↔ textItems text = tokens.map .token := by
  refine ⟨Lexed.textItems, fun hitems => ?_⟩
  rcases lexed_or_unterminated text with ⟨others, h⟩ | h
  · have hsame : others.map Item.token = tokens.map Item.token := h.textItems.symm.trans hitems
    rwa [map_token_inj hsame] at h
  · rw [hitems] at h
    simp at h

-- What is answered if the next token is asked for so many times.
def draws : Nat → Input → List (Except ReadError (Option String))
  | 0, _ => []
  | count + 1, input => input.next.1 :: draws count input.next.2

end Input

-- The first answers that items lead to, and no tokens after that.
def itemDraws : Nat → List Item → List (Except ReadError (Option String))
  | 0, _ => []
  | count + 1, [] => .ok none :: itemDraws count []
  | count + 1, item :: items => item.answer :: itemDraws count items

namespace Input

theorem draws_eq_itemDraws (count : Nat) {input : Input} {queue : Queue} (h : input.Holds queue) :
    draws count input = itemDraws count queue.items := by
  induction count generalizing input queue with
  | zero => rfl
  | succ count ih =>
    obtain ⟨hanswer, hafter⟩ := next_agrees h
    rw [draws, ih hafter, hanswer]
    cases hitems : queue.items with
    | nil =>
      rw [Queue.next_of_items_nil hitems]
      rfl
    | cons item rest =>
      obtain ⟨after, hnext, hrest⟩ := Queue.exists_next hitems
      rw [hnext, ← hrest]
      rfl

theorem draws_ofText (count : Nat) (text : String) :
    draws count (ofText text) = itemDraws count (textItems text.toList) :=
  draws_eq_itemDraws count (holds_ofText text)

end Input

-- Tokens and then none are the answers where there are these tokens and nothing else.
theorem itemDraws_eq_iff {items : List Item} {tokens : List String} :
    itemDraws (tokens.length + 1) items = tokens.map (.ok ∘ some) ++ [.ok none] ↔
      items = tokens.map fun token => .token token.toList := by
  induction tokens generalizing items with
  | nil =>
    rcases items with _ | ⟨_ | _, items⟩ <;> simp [itemDraws, Item.answer]
  | cons token tokens ih =>
    rcases items with _ | ⟨text | _, items⟩
    · simp [itemDraws]
    · have hsame : String.ofList text = token ↔ text = token.toList := by
        constructor
        · rintro rfl
          exact String.toList_ofList.symm
        · rintro rfl
          exact String.ofList_toList
      simp [itemDraws, Item.answer, ih, hsame]
    · simp [itemDraws, Item.answer]

theorem unterminated_mem_of_error {count : Nat} {items : List Item} {error : ReadError}
    (h : .error error ∈ itemDraws count items) :
    .unterminated ∈ items ∧ error = .unterminatedString := by
  induction count generalizing items with
  | zero => cases h
  | succ count ih =>
    rcases items with _ | ⟨text | _, items⟩
    · simp only [itemDraws, List.mem_cons, reduceCtorEq, false_or] at h
      exact absurd (ih h).1 List.not_mem_nil
    · simp only [itemDraws, Item.answer, List.mem_cons, reduceCtorEq, false_or] at h
      obtain ⟨hmem, rfl⟩ := ih h
      exact ⟨List.mem_cons_of_mem _ hmem, rfl⟩
    · simp only [itemDraws, Item.answer, List.mem_cons, Except.error.injEq] at h
      refine ⟨List.mem_cons_self, ?_⟩
      rcases h with rfl | h
      · rfl
      · exact (ih h).2

theorem error_mem_itemDraws {items : List Item} (h : .unterminated ∈ items) :
    .error .unterminatedString ∈ itemDraws items.length items := by
  induction items with
  | nil => cases h
  | cons item items ih =>
    rcases List.mem_cons.mp h with rfl | h
    · exact List.mem_cons_self
    · exact List.mem_cons_of_mem _ (ih h)

-- Without such an item there are tokens only.
theorem exists_tokens_iff (items : List Item) :
    (∃ tokens : List (List Char), items = tokens.map .token) ↔ .unterminated ∉ items := by
  constructor
  · rintro ⟨tokens, rfl⟩
    simp
  · intro h
    induction items with
    | nil => exact ⟨[], rfl⟩
    | cons item items ih =>
      obtain ⟨hitem, hitems⟩ := not_or.mp (mt List.mem_cons.mpr h)
      obtain ⟨tokens, rfl⟩ := ih hitems
      cases item with
      | token text => exact ⟨text :: tokens, rfl⟩
      | unterminated => exact absurd rfl hitem

-- The tokens that are drawn from a text are those of its only decomposition, and where it has none
-- a string that does not end on its line is met.
theorem Input.draws_iff_decomposes (text : String) :
    (∀ tokens : List String,
      draws (tokens.length + 1) (ofText text) = tokens.map (.ok ∘ some) ++ [.ok none] ↔
        Decomposes text.toList (tokens.map String.toList)) ∧
    (∀ tokens others, Decomposes text.toList tokens → Decomposes text.toList others →
      others = tokens) ∧
    ((∃ count error, .error error ∈ draws count (ofText text)) ↔
      ¬∃ tokens, Decomposes text.toList tokens) ∧
    ∀ count error, .error error ∈ draws count (ofText text) →
      error.message = "Unterminated string literal" := by
  simp only [decomposes_iff_lexed, lexed_iff_textItems, draws_ofText, exists_tokens_iff]
  refine ⟨fun tokens => ?_, fun tokens others h h' => ?_, ?_, fun count error h => ?_⟩
  · rw [itemDraws_eq_iff, List.map_map]
    rfl
  · exact map_token_inj (h'.symm.trans h)
  · rw [not_not]
    constructor
    · rintro ⟨count, error, h⟩
      exact (unterminated_mem_of_error h).1
    · exact fun h => ⟨_, _, error_mem_itemDraws h⟩
  · rw [(unterminated_mem_of_error h).2]
    rfl

end Lisplet
