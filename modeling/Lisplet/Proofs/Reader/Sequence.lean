import Lisplet.Proofs.Reader.Grammar
import Lisplet.Proofs.Reader.Queue

namespace Lisplet

-- Expressions that are read one after the other, and the error that stops it if it is not the end.
structure Sequence where
  forms : List Expr
  error? : Option ReadError

namespace Sequence

def cons (e : Expr) (sequence : Sequence) : Sequence := ⟨e :: sequence.forms, sequence.error?⟩

-- All expressions, or the error.
def result (sequence : Sequence) : Except ReadError (List Expr) :=
  match sequence.error? with
  | none => .ok sequence.forms
  | some error => .error error

theorem result_cons (e : Expr) (sequence : Sequence) :
    (sequence.cons e).result = sequence.result.map (e :: ·) := by
  obtain ⟨forms, _ | error⟩ := sequence <;> rfl

end Sequence

namespace Input

def sequence (table : Shorthands) (input : Input) : Sequence :=
  match _h : input.read table with
  | (.ok none, _) => ⟨[], none⟩
  | (.error error, _) => ⟨[], some error⟩
  | (.ok (some e), after) => (sequence table after).cons e
termination_by input.size
decreasing_by exact read_size_lt ‹_›

theorem sequence_eq (table : Shorthands) (input : Input) :
    sequence table input = match input.read table with
      | (.ok none, _) => ⟨[], none⟩
      | (.error error, _) => ⟨[], some error⟩
      | (.ok (some e), after) => (sequence table after).cons e := by
  rw [sequence]
  split <;> simp_all

theorem readAll_eq_sequence (table : Shorthands) (input : Input) :
    (input.readAll table).1 = (sequence table input).result := by
  fun_induction readAll table input with
  | case1 input after hread => rw [sequence_eq, hread, Sequence.result]
  | case2 input error after hread => rw [sequence_eq, hread, Sequence.result]
  | case3 input e after hread rest final hrest ih =>
    rw [hrest] at ih
    rw [sequence_eq, hread, Sequence.result_cons, ← ih]

theorem sequence_of_parseAll {table : Shorthands} {text : String} {forms : List Expr}
    (h : Reader.parseAll table text = .ok forms) :
    (ofText text).sequence table = ⟨forms, none⟩ := by
  rw [Reader.parseAll, readAll_eq_sequence] at h
  rcases hsequence : (ofText text).sequence table with ⟨found, _ | error⟩
  · rw [hsequence] at h
    cases h
    rfl
  · rw [hsequence] at h
    cases h

end Input

namespace Reader

variable {table : Shorthands} {stack : List Opening} {tokens rest : List String} {e : Expr}

theorem readTokens_length_lt (h : readTokens table tokens = (.ok e, rest)) :
    rest.length < tokens.length := by
  obtain ⟨part, rfl, hform⟩ := exists_derives_of_readTokens h
  have hpos : 0 < part.length := by cases hform <;> simp
  rw [List.length_append]
  omega

-- The same from a list of tokens, until none is left.
def tokenSequence (table : Shorthands) (tokens : List String) : Sequence :=
  if tokens = [] then ⟨[], none⟩
  else match _h : readTokens table tokens with
    | (.ok e, rest) => (tokenSequence table rest).cons e
    | (.error error, _) => ⟨[], some error⟩
termination_by tokens.length
decreasing_by exact readTokens_length_lt ‹_›

theorem tokenSequence_eq (table : Shorthands) (tokens : List String) :
    tokenSequence table tokens =
      if tokens = [] then ⟨[], none⟩
      else match readTokens table tokens with
        | (.ok e, rest) => (tokenSequence table rest).cons e
        | (.error error, _) => ⟨[], some error⟩ := by
  rw [tokenSequence]
  split
  · rfl
  · split <;> simp_all

theorem eq_nil_of_endError (h : endError stack = .nothingToRead) : stack = [] := by
  rcases stack with _ | ⟨_ | _, _⟩
  · rfl
  · cases h
  · cases h

-- Where there are tokens, something has begun before they end.
theorem readTokens_ne_nothingToRead (hne : tokens ≠ []) :
    readTokens table tokens ≠ (.error .nothingToRead, rest) := by
  intro h
  rcases readTokens_cases table tokens with ⟨_, _, _, _, _, hread⟩ | ⟨stack, hbegun, hread⟩ |
    ⟨_, _, _, _, hread⟩
  · rw [hread] at h
    cases h
  · rw [hread] at h
    have hstack : stack = [] := eq_nil_of_endError (by injection h with h; injection h)
    subst hstack
    cases hbegun
    exact hne rfl
  · rw [hread] at h
    cases h

end Reader

namespace Queue

open Reader

variable {table : Shorthands} {stack : List Opening} {tokens : List String} {queue : Queue}

theorem readFrom_of_items_nil (h : queue.items = []) :
    readFrom table stack queue = (Input.atEnd stack, ⟨[], []⟩) := by
  rw [readFrom_eq, next_of_items_nil h]

-- From a queue of tokens the expression is read that is read from their list.
theorem read_tokens (table : Shorthands) (hne : tokens ≠ [])
    (h : queue.items = tokens.map (.token ·.toList)) :
    ∃ after, queue.read table = ((readTokens table tokens).1.map some, after) ∧
      after.items = (readTokens table tokens).2.map (.token ·.toList) := by
  have hreads := readFrom_tokens table [] tokens [] queue (by rw [h, List.append_nil])
  obtain ⟨after, hafter⟩ := hreads
  rcases hread : readTokens table tokens with ⟨error | e, rest⟩
  · rw [readTokens] at hread
    simp only [hread, List.append_nil] at hafter
    rcases hafter with ⟨hqueue, hrest⟩ | ⟨stack, rfl, hqueue, hrest⟩
    · exact ⟨after, hqueue, hrest⟩
    · have hstack : stack.isEmpty = false := by
        cases stack with
        | nil => exact absurd hread (readTokens_ne_nothingToRead hne)
        | cons opening stack => rfl
      have hend : Input.atEnd stack = .error (endError stack) := by
        rw [Input.atEnd, hstack]
        rfl
      have hnone : rest = [] := by
        rcases begun_or_unclosable_of_readTokens hread with ⟨-, hrest, -⟩ | ⟨hstray, -⟩
        · exact hrest
        · have hatEnd := isAtEnd_endError stack
          rw [hstray] at hatEnd
          cases hatEnd
      rw [readFrom_of_items_nil hrest, hend] at hqueue
      exact ⟨⟨[], []⟩, hqueue, by rw [hnone]; rfl⟩
  · rw [readTokens] at hread
    simp only [hread, List.append_nil] at hafter
    exact ⟨after, hafter⟩

end Queue

namespace Input

open Reader

variable {table : Shorthands} {tokens : List String} {input : Input} {queue : Queue}

theorem read_tokens (table : Shorthands) (hholds : input.Holds queue) (hne : tokens ≠ [])
    (h : queue.items = tokens.map (.token ·.toList)) :
    ∃ after later, input.read table = ((readTokens table tokens).1.map some, after) ∧
      after.Holds later ∧ later.items = (readTokens table tokens).2.map (.token ·.toList) := by
  obtain ⟨hanswer, hafter⟩ := read_agrees table hholds
  obtain ⟨later, hread, hlater⟩ := Queue.read_tokens table hne h
  rw [hread] at hanswer hafter
  exact ⟨(input.read table).2, later, Prod.ext hanswer rfl, hafter, hlater⟩

theorem read_of_items_nil (table : Shorthands) (hholds : input.Holds queue) (h : queue.items = []) :
    (input.read table).1 = .ok none := by
  obtain ⟨hanswer, -⟩ := read_agrees table hholds
  rw [hanswer, Queue.read, Queue.readFrom_of_items_nil h]
  rfl

-- Inputs with the same on their lines are read alike.
theorem sequence_congr {other : Input} (h : input.Holds queue) (hother : other.Holds queue) :
    sequence table input = sequence table other := by
  induction hsize : input.size using Nat.strongRecOn generalizing input other queue with
  | ind size ih =>
    subst hsize
    obtain ⟨hanswer, hafter⟩ := read_agrees table h
    obtain ⟨hothers, hlater⟩ := read_agrees table hother
    have hsame : (other.read table).1 = (input.read table).1 := hothers.trans hanswer.symm
    rw [sequence_eq table input, sequence_eq table other]
    rcases hread : input.read table with ⟨answer, after⟩
    rcases hreads : other.read table with ⟨same, later⟩
    rw [hread] at hsame hafter
    rw [hreads] at hsame hlater
    obtain rfl : same = answer := hsame
    rcases same with error | _ | e
    · rfl
    · rfl
    · exact congrArg (Sequence.cons e) (ih after.size (read_size_lt hread) hafter hlater rfl)

-- An input that holds tokens and nothing else is read as the list of them.
theorem sequence_eq_tokenSequence (hholds : input.Holds queue)
    (h : queue.items = tokens.map (.token ·.toList)) :
    sequence table input = tokenSequence table tokens := by
  induction hlength : tokens.length using Nat.strongRecOn generalizing tokens input queue with
  | ind length ih =>
    subst hlength
    rw [sequence_eq, tokenSequence_eq]
    by_cases hne : tokens = []
    · have hend := read_of_items_nil table hholds (by rw [h, hne]; rfl)
      rcases hread : input.read table with ⟨answer, after⟩
      rw [hread] at hend
      subst hend
      rw [if_pos hne]
    · obtain ⟨after, later, hread, hafter, hlater⟩ := read_tokens table hholds hne h
      rw [if_neg hne, hread]
      rcases htokens : readTokens table tokens with ⟨error | e, rest⟩
      · rfl
      · rw [htokens] at hlater
        have hless := readTokens_length_lt htokens
        simp only [Except.map, ih rest.length hless hafter hlater rfl]

theorem parse_eq_readTokens (text : String)
    (h : textItems text.toList = tokens.map (.token ·.toList)) :
    parse table text = (readTokens table tokens).1 := by
  have hitems : Queue.items ⟨[], (splitLines text.toList).map lineItems⟩ =
      tokens.map (.token ·.toList) := h
  rw [parse]
  by_cases hne : tokens = []
  · rw [hne] at hitems ⊢
    rw [read_of_items_nil table (holds_ofText text) hitems]
    rfl
  · obtain ⟨after, later, hread, -, -⟩ := read_tokens table (holds_ofText text) hne hitems
    rw [hread]
    cases (readTokens table tokens).1 <;> rfl

end Input

end Lisplet
