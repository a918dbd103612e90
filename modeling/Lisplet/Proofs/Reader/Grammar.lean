import Lisplet.Reader.Basic

namespace Lisplet

-- What is wrong at the end of the tokens begins with the same words, whatever has begun.
theorem ReadError.isAtEnd_iff (error : ReadError) :
    error.isAtEnd ↔ "Unexpected EOF".toList <+: error.message.toList := by
  cases error with
  | endAfter shorthand =>
    have hprefix : "Unexpected EOF".toList <+: "Unexpected EOF after ".toList := by decide +kernel
    have hmessage : (endAfter shorthand).message = "Unexpected EOF after " ++ shorthand := rfl
    rw [hmessage, String.toList_append]
    exact ⟨fun _ => hprefix.trans (List.prefix_append _ _), fun _ => rfl⟩
  | _ => decide +kernel

theorem ReadError.message_eq_iff (error : ReadError) :
    error.message = "Unexpected ')'" ↔ error = .strayClose := by
  cases error with
  | endAfter shorthand =>
    refine ⟨fun h => ?_, fun h => by cases h⟩
    have hend : "Unexpected EOF".toList <+: (endAfter shorthand).message.toList :=
      (isAtEnd_iff _).mp rfl
    rw [h] at hend
    exact absurd hend (by decide +kernel)
  | _ => decide +kernel

namespace Reader

-- The tokens of an expression. A list has those of its items between its parentheses, and a
-- shorthand stands in front of its operand.
inductive Derives (table : Shorthands) : List String → Expr → Prop
  | atom (token : String) (hopen : token ≠ "(") (hclose : token ≠ ")")
      (h : table.find? token = none) : Derives table [token] (atom token)
  | list (parts : List (List String × Expr)) (h : ∀ part ∈ parts, Derives table part.1 part.2) :
      Derives table ("(" :: parts.flatMap Prod.fst ++ [")"]) (.list (parts.map Prod.snd))
  | shorthand (token keyword : String) (tokens : List String) (e : Expr) (hopen : token ≠ "(")
      (hclose : token ≠ ")") (hkeyword : table.find? token = some keyword)
      (h : Derives table tokens e) : Derives table (token :: tokens) (.list [.symbol keyword, e])

-- Tokens of which the first ones are those of an expression.
def StartsForm (table : Shorthands) (tokens : List String) : Prop :=
  ∃ part rest e, tokens = part ++ rest ∧ Derives table part e

-- Tokens after which an expression has to come: none, or a shorthand at their end.
def AwaitsForm (table : Shorthands) (tokens : List String) : Prop :=
  tokens = [] ∨ ∃ earlier token, tokens = earlier ++ [token] ∧ token ≠ "(" ∧ token ≠ ")" ∧
    table.contains token

-- Tokens that begin an expression and do not end it, and what they begin.
inductive Begun (table : Shorthands) : List String → List Opening → Prop
  | nil : Begun table [] []
  | items (tokens : List String) (stack : List Opening) (parts : List (List String × Expr))
      (hstack : Begun table tokens stack) (hparts : ∀ part ∈ parts, Derives table part.1 part.2) :
      Begun table (tokens ++ "(" :: parts.flatMap Prod.fst)
        (.items (parts.map Prod.snd).reverse :: stack)
  | operand (tokens : List String) (stack : List Opening) (token keyword : String)
      (hstack : Begun table tokens stack) (hopen : token ≠ "(") (hclose : token ≠ ")")
      (hkeyword : table.find? token = some keyword) :
      Begun table (tokens ++ [token]) (.operand token keyword :: stack)

-- Tokens in which no list is open at the end, so that none can be closed.
def Unclosable (table : Shorthands) (tokens : List String) : Prop :=
  AwaitsForm table tokens ∧
    ∃ stack, Begun table tokens stack ∧ feed table stack ")" = .failed .strayClose

-- What the tokens come to.
def Reads (table : Shorthands) (tokens : List String) : Progress → Prop
  | .done e => Derives table tokens e
  | .more stack => Begun table tokens stack
  | .failed _ => ∃ earlier, tokens = earlier ++ [")"] ∧ Unclosable table earlier

section

variable {table : Shorthands} {tokens part : List String} {stack : List Opening} {e : Expr}

theorem feed_atom (stack : List Opening) {token : String} (hopen : token ≠ "(")
    (hclose : token ≠ ")") (h : table.find? token = none) :
    feed table stack token = complete (atom token) stack := by
  simp [feed, hopen, hclose, h]

theorem feed_shorthand (stack : List Opening) {token keyword : String} (hopen : token ≠ "(")
    (hclose : token ≠ ")") (h : table.find? token = some keyword) :
    feed table stack token = .more (.operand token keyword :: stack) := by
  simp [feed, hopen, hclose, h]

theorem feed_open (stack : List Opening) : feed table stack "(" = .more (.items [] :: stack) := rfl

theorem feed_close (reversed : List Expr) (stack : List Opening) :
    feed table (.items reversed :: stack) ")" = complete (.list reversed.reverse) stack := rfl

theorem complete_reads (hstack : Begun table tokens stack) (he : Derives table part e) :
    Reads table (tokens ++ part) (complete e stack) := by
  induction hstack generalizing part e with
  | nil => exact he
  | items tokens stack parts hstack hparts ih =>
    have hall : ∀ p ∈ parts ++ [(part, e)], Derives table p.1 p.2 :=
      List.forall_mem_append.mpr ⟨hparts, List.forall_mem_singleton.mpr he⟩
    have hbegun := Begun.items tokens stack (parts ++ [(part, e)]) hstack hall
    simpa [Reads, complete] using hbegun
  | operand tokens stack token keyword hstack hopen hclose hkeyword ih =>
    have hform := Derives.shorthand token keyword part e hopen hclose hkeyword he
    simpa [complete] using ih hform

theorem feed_close_reads (hstack : Begun table tokens stack) :
    Reads table (tokens ++ [")"]) (feed table stack ")") := by
  cases hstack with
  | nil => exact ⟨[], rfl, .inl rfl, [], .nil, rfl⟩
  | items earlier stack parts hstack hparts =>
    rw [feed_close, List.reverse_reverse, List.append_assoc]
    exact complete_reads hstack (.list parts hparts)
  | operand earlier stack token keyword hstack hopen hclose hkeyword =>
    have hcontains : table.contains token := by simp [Shorthands.contains, hkeyword]
    have hbegun := Begun.operand earlier stack token keyword hstack hopen hclose hkeyword
    exact ⟨_, rfl, .inr ⟨earlier, token, rfl, hopen, hclose, hcontains⟩, _, hbegun, rfl⟩

theorem feed_reads (hstack : Begun table tokens stack) (token : String) :
    Reads table (tokens ++ [token]) (feed table stack token) := by
  by_cases hopen : token = "("
  · rw [hopen, feed_open]
    exact .items tokens stack [] hstack (List.forall_mem_nil _)
  by_cases hclose : token = ")"
  · rw [hclose]
    exact feed_close_reads hstack
  cases hfind : table.find? token with
  | some keyword =>
    rw [feed_shorthand stack hopen hclose hfind]
    exact .operand tokens stack token keyword hstack hopen hclose hfind
  | none =>
    rw [feed_atom stack hopen hclose hfind]
    exact complete_reads hstack (.atom token hopen hclose hfind)

-- From what has begun, tokens lead to the end of an expression, or end before it, or close what is
-- not open.
theorem Begun.startsForm_or_begun_or_unclosable (hstack : Begun table tokens stack)
    (later : List String) :
    StartsForm table (tokens ++ later) ∨ (∃ stack, Begun table (tokens ++ later) stack) ∨
      ∃ before rest, tokens ++ later = before ++ ")" :: rest ∧ Unclosable table before := by
  induction later generalizing tokens stack with
  | nil => exact .inr (.inl ⟨stack, by simpa using hstack⟩)
  | cons token later ih =>
    have hfeed := feed_reads hstack token
    rw [← List.singleton_append, ← List.append_assoc]
    cases hprogress : feed table stack token with
    | done e =>
      rw [hprogress] at hfeed
      exact .inl ⟨tokens ++ [token], later, e, rfl, hfeed⟩
    | more stack' =>
      rw [hprogress] at hfeed
      exact ih hfeed
    | failed error =>
      rw [hprogress] at hfeed
      obtain ⟨before, hbefore, hunclosable⟩ := hfeed
      exact .inr (.inr ⟨before, later, by simp [hbefore], hunclosable⟩)

-- Reading on where so many tokens are left.
def goOn (table : Shorthands) (rest : List String) : Progress → Except ReadError Expr × List String
  | .done e => (.ok e, rest)
  | .more stack => readTokensFrom table stack rest
  | .failed error => (.error error, rest)

theorem readTokensFrom_cons (stack : List Opening) (token : String) (rest : List String) :
    readTokensFrom table stack (token :: rest) = goOn table rest (feed table stack token) := by
  rw [readTokensFrom]
  cases feed table stack token <;> rfl

-- The tokens are as good as the expression wherever they are read.
def StandFor (table : Shorthands) (tokens : List String) (e : Expr) : Prop :=
  ∀ stack rest, readTokensFrom table stack (tokens ++ rest) = goOn table rest (complete e stack)

theorem readTokensFrom_parts {parts : List (List String × Expr)}
    (h : ∀ part ∈ parts, StandFor table part.1 part.2) (reversed : List Expr)
    (stack : List Opening) (rest : List String) :
    readTokensFrom table (.items reversed :: stack) (parts.flatMap Prod.fst ++ rest) =
      readTokensFrom table (.items ((parts.map Prod.snd).reverse ++ reversed) :: stack) rest := by
  induction parts generalizing reversed with
  | nil => rfl
  | cons part parts ih =>
    obtain ⟨hpart, hparts⟩ := List.forall_mem_cons.mp h
    rw [List.flatMap_cons, List.append_assoc, hpart, complete, goOn, ih hparts]
    simp

theorem Derives.standFor (h : Derives table tokens e) : StandFor table tokens e := by
  induction h with
  | atom token hopen hclose hnone =>
    intro stack rest
    rw [List.singleton_append, readTokensFrom_cons, feed_atom stack hopen hclose hnone]
  | list parts _ ih =>
    intro stack rest
    rw [List.cons_append, List.cons_append, readTokensFrom_cons, feed_open, goOn,
      List.append_assoc, readTokensFrom_parts ih, List.singleton_append, readTokensFrom_cons,
      feed_close, List.append_nil, List.reverse_reverse]
  | shorthand token keyword tokens e hopen hclose hkeyword _ ih =>
    intro stack rest
    rw [List.cons_append, readTokensFrom_cons, feed_shorthand stack hopen hclose hkeyword]
    exact ih (.operand token keyword :: stack) rest

theorem readTokens_of_derives (h : Derives table tokens e) (rest : List String) :
    readTokens table (tokens ++ rest) = (.ok e, rest) := h.standFor [] rest

theorem readTokens_of_begun (h : Begun table tokens stack) (rest : List String) :
    readTokens table (tokens ++ rest) = readTokensFrom table stack rest := by
  induction h generalizing rest with
  | nil => rfl
  | items tokens stack parts _ hparts ih =>
    have hstand : ∀ part ∈ parts, StandFor table part.1 part.2 := fun part hpart =>
      (hparts part hpart).standFor
    rw [List.append_assoc, ih, List.cons_append, readTokensFrom_cons, feed_open, goOn,
      readTokensFrom_parts hstand, List.append_nil]
  | operand tokens stack token keyword _ hopen hclose hkeyword ih =>
    rw [List.append_assoc, ih, List.singleton_append, readTokensFrom_cons,
      feed_shorthand stack hopen hclose hkeyword, goOn]

theorem readTokens_of_unclosable (h : Unclosable table tokens) (rest : List String) :
    readTokens table (tokens ++ ")" :: rest) = (.error .strayClose, rest) := by
  obtain ⟨-, stack, hstack, hfeed⟩ := h
  rw [readTokens_of_begun hstack, readTokensFrom_cons, hfeed, goOn]

-- Whatever has begun, there are tokens that end it after any next expression.
theorem Begun.exists_derives (h : Begun table tokens stack) (he : Derives table part e) :
    ∃ more whole, Derives table (tokens ++ part ++ more) whole := by
  induction h generalizing part e with
  | nil => exact ⟨[], e, by simpa using he⟩
  | items tokens stack parts hstack hparts ih =>
    have hall : ∀ p ∈ parts ++ [(part, e)], Derives table p.1 p.2 :=
      List.forall_mem_append.mpr ⟨hparts, List.forall_mem_singleton.mpr he⟩
    obtain ⟨more, whole, hwhole⟩ := ih (.list _ hall)
    exact ⟨")" :: more, whole, by simpa using hwhole⟩
  | operand tokens stack token keyword hstack hopen hclose hkeyword ih =>
    obtain ⟨more, whole, hwhole⟩ := ih (.shorthand token keyword part e hopen hclose hkeyword he)
    exact ⟨more, whole, by simpa using hwhole⟩

theorem Begun.exists_startsForm (h : Begun table tokens stack) :
    ∃ more, StartsForm table (tokens ++ more) := by
  have hempty : Derives table ["(", ")"] (.list []) := .list [] (List.forall_mem_nil _)
  obtain ⟨more, whole, hwhole⟩ := h.exists_derives hempty
  exact ⟨["(", ")"] ++ more, tokens ++ ["(", ")"] ++ more, [], whole, by simp, hwhole⟩

theorem not_startsForm_of_readTokens {error : ReadError} {rest : List String}
    (h : readTokens table tokens = (.error error, rest)) : ¬StartsForm table tokens := by
  rintro ⟨part, rest', e, rfl, hform⟩
  rw [readTokens_of_derives hform] at h
  cases h

-- What cannot be closed stays so, whatever comes after it.
theorem Unclosable.not_startsForm (h : Unclosable table tokens) (more : List String) :
    ¬StartsForm table (tokens ++ ")" :: more) :=
  not_startsForm_of_readTokens (readTokens_of_unclosable h more)

theorem isAtEnd_endError (stack : List Opening) : (endError stack).isAtEnd := by
  rcases stack with _ | ⟨_ | _, _⟩ <;> rfl

-- How reading ends, by what the tokens are.
theorem readTokens_cases (table : Shorthands) (tokens : List String) :
    (∃ part rest e, tokens = part ++ rest ∧ Derives table part e ∧
      readTokens table tokens = (.ok e, rest)) ∨
    (∃ stack, Begun table tokens stack ∧
      readTokens table tokens = (.error (endError stack), [])) ∨
    ∃ before rest, tokens = before ++ ")" :: rest ∧ Unclosable table before ∧
      readTokens table tokens = (.error .strayClose, rest) := by
  have hempty : Begun table [] [] := .nil
  have hcases := hempty.startsForm_or_begun_or_unclosable tokens
  rw [List.nil_append] at hcases
  rcases hcases with ⟨part, rest, e, rfl, h⟩ | ⟨stack, h⟩ | ⟨before, rest, rfl, h⟩
  · exact .inl ⟨part, rest, e, rfl, h, readTokens_of_derives h rest⟩
  · have hend := readTokens_of_begun h []
    rw [List.append_nil] at hend
    exact .inr (.inl ⟨stack, h, hend⟩)
  · exact .inr (.inr ⟨before, rest, rfl, h, readTokens_of_unclosable h rest⟩)

theorem exists_derives_of_readTokens {rest : List String}
    (h : readTokens table tokens = (.ok e, rest)) :
    ∃ part, tokens = part ++ rest ∧ Derives table part e := by
  rcases readTokens_cases table tokens with ⟨part, _, _, heq, hform, hread⟩ | ⟨_, _, hread⟩ |
    ⟨_, _, _, _, hread⟩ <;> rw [hread] at h <;> cases h
  exact ⟨part, heq, hform⟩

theorem begun_or_unclosable_of_readTokens {error : ReadError} {rest : List String}
    (h : readTokens table tokens = (.error error, rest)) :
    (error.isAtEnd ∧ rest = [] ∧ ∃ stack, Begun table tokens stack) ∨
    (error = .strayClose ∧ ∃ before, tokens = before ++ ")" :: rest ∧ Unclosable table before) := by
  rcases readTokens_cases table tokens with ⟨_, _, _, _, _, hread⟩ | ⟨stack, hbegun, hread⟩ |
    ⟨before, _, heq, hunclosable, hread⟩ <;> rw [hread] at h <;> cases h
  · exact .inl ⟨isAtEnd_endError stack, rfl, stack, hbegun⟩
  · exact .inr ⟨rfl, before, heq, hunclosable⟩

-- Two expressions that both start the tokens have the same tokens and are the same.
theorem Derives.unique {part' : List String} {e' : Expr} {rest rest' : List String}
    (h : Derives table part e) (h' : Derives table part' e') (heq : part ++ rest = part' ++ rest') :
    part' = part ∧ e' = e := by
  have hread := readTokens_of_derives h rest
  rw [heq, readTokens_of_derives h'] at hread
  cases hread
  exact ⟨(List.append_cancel_right heq).symm, rfl⟩

theorem exists_isAtEnd_iff :
    (∃ error rest, readTokens table tokens = (.error error, rest) ∧ error.isAtEnd) ↔
      ¬StartsForm table tokens ∧ ∃ more, StartsForm table (tokens ++ more) := by
  constructor
  · rintro ⟨error, rest, hread, hend⟩
    refine ⟨not_startsForm_of_readTokens hread, ?_⟩
    rcases begun_or_unclosable_of_readTokens hread with ⟨-, -, stack, hbegun⟩ | ⟨rfl, -⟩
    · exact hbegun.exists_startsForm
    · cases hend
  · rintro ⟨hnone, more, hmore⟩
    rcases readTokens_cases table tokens with ⟨part, rest, e, heq, hform, -⟩ | ⟨stack, -, hread⟩ |
      ⟨before, rest, rfl, hunclosable, -⟩
    · exact absurd ⟨part, rest, e, heq, hform⟩ hnone
    · exact ⟨endError stack, [], hread, isAtEnd_endError stack⟩
    · rw [List.append_assoc] at hmore
      exact absurd hmore (hunclosable.not_startsForm (rest ++ more))

theorem exists_strayClose_iff :
    (∃ rest, readTokens table tokens = (.error .strayClose, rest)) ↔
      ∀ more, ¬StartsForm table (tokens ++ more) := by
  constructor
  · rintro ⟨rest, hread⟩ more
    rcases begun_or_unclosable_of_readTokens hread with ⟨hend, -⟩ | ⟨-, before, rfl, hunclosable⟩
    · cases hend
    · rw [List.append_assoc]
      exact hunclosable.not_startsForm (rest ++ more)
  · intro hnone
    rcases readTokens_cases table tokens with ⟨part, rest, e, heq, hform, -⟩ | ⟨stack, hbegun, -⟩ |
      ⟨_, rest, -, -, hread⟩
    · have hstarts : StartsForm table (tokens ++ []) := ⟨part, rest, e, by simpa using heq, hform⟩
      exact absurd hstarts (hnone [])
    · obtain ⟨more, hmore⟩ := hbegun.exists_startsForm
      exact absurd hmore (hnone more)
    · exact ⟨rest, hread⟩

-- Reading takes the tokens of one expression and no more. It fails at the end of the tokens if
-- more of them could make an expression, and if none could, at the parenthesis that is to blame.
theorem readTokens_iff_derives (table : Shorthands) (tokens : List String) :
    (∀ e rest, readTokens table tokens = (.ok e, rest) ↔
      ∃ part, tokens = part ++ rest ∧ Derives table part e) ∧
    (∀ part rest e part' rest' e', tokens = part ++ rest → Derives table part e →
      tokens = part' ++ rest' → Derives table part' e' → part' = part ∧ e' = e) ∧
    ((∃ error rest, readTokens table tokens = (.error error, rest) ∧
        "Unexpected EOF".toList <+: error.message.toList) ↔
      ¬StartsForm table tokens ∧ ∃ more, StartsForm table (tokens ++ more)) ∧
    ((∃ error rest, readTokens table tokens = (.error error, rest) ∧
        error.message = "Unexpected ')'") ↔
      ∀ more, ¬StartsForm table (tokens ++ more)) ∧
    ∀ error rest, readTokens table tokens = (.error error, rest) →
      ("Unexpected EOF".toList <+: error.message.toList ∧ rest = []) ∨
      (error.message = "Unexpected ')'" ∧ ∃ before, tokens = before ++ ")" :: rest ∧
        AwaitsForm table before ∧ (∃ more, StartsForm table (before ++ more)) ∧
        ∀ more, ¬StartsForm table (before ++ ")" :: more)) := by
  simp only [← ReadError.isAtEnd_iff, ReadError.message_eq_iff]
  refine ⟨fun e rest => ⟨exists_derives_of_readTokens, ?_⟩, ?_, exists_isAtEnd_iff, ?_, ?_⟩
  · rintro ⟨part, rfl, hform⟩
    exact readTokens_of_derives hform rest
  · intro part rest e part' rest' e' heq hform heq' hform'
    exact hform.unique hform' (heq.symm.trans heq')
  · rw [← exists_strayClose_iff]
    constructor
    · rintro ⟨_, rest, hread, rfl⟩
      exact ⟨rest, hread⟩
    · rintro ⟨rest, hread⟩
      exact ⟨.strayClose, rest, hread, rfl⟩
  · intro error rest hread
    rcases begun_or_unclosable_of_readTokens hread with ⟨hend, hrest, -⟩ |
      ⟨hstray, before, heq, hunclosable⟩
    · exact .inl ⟨hend, hrest⟩
    · have hlost := hunclosable.not_startsForm
      obtain ⟨hawaits, stack, hbegun, -⟩ := hunclosable
      exact .inr ⟨hstray, before, heq, hawaits, hbegun.exists_startsForm, hlost⟩

end

end Reader

end Lisplet
