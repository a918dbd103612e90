import Mathlib.Data.List.Forall2
import Lisplet.Proofs.Reader.Forms
import Lisplet.Proofs.Reader.Itemized

namespace Lisplet

-- The answer to which an item leads.
def Item.answer : Item → Except ReadError (Option String)
  | token text => .ok (some (String.ofList text))
  | unterminated => .error .unterminatedString

-- What there still is to read: the items left on the current line, and those of each later line.
structure Queue where
  current : List Item
  later : List (List Item)

namespace Queue

def items (queue : Queue) : List Item := queue.current ++ queue.later.flatten

-- The first item of the first line that has any.
def pop : List Item → List (List Item) → Except ReadError (Option String) × Queue
  | .token text :: current, later => (.ok (some (String.ofList text)), ⟨current, later⟩)
  | .unterminated :: current, later => (.error .unterminatedString, ⟨current, later⟩)
  | [], [] => (.ok none, ⟨[], []⟩)
  | [], line :: later => pop line later

def next (queue : Queue) : Except ReadError (Option String) × Queue :=
  pop queue.current queue.later

def discardLine (queue : Queue) : Queue := ⟨[], queue.later⟩

theorem pop_token {current : List Item} {later : List (List Item)} {token : String} {after : Queue}
    (h : pop current later = (.ok (some token), after)) :
    ∃ text, token = String.ofList text ∧ current ++ later.flatten = .token text :: after.items := by
  induction later generalizing current with
  | nil =>
    rcases current with _ | ⟨_ | _, current⟩
    · cases h
    · cases h
      exact ⟨_, rfl, rfl⟩
    · cases h
  | cons line later ih =>
    rcases current with _ | ⟨_ | _, current⟩
    · exact ih h
    · cases h
      exact ⟨_, rfl, rfl⟩
    · cases h

theorem length_items_lt {queue after : Queue} {token : String}
    (h : queue.next = (.ok (some token), after)) : after.items.length < queue.items.length := by
  obtain ⟨text, -, hitems⟩ := pop_token h
  have hfront : queue.items = .token text :: after.items := hitems
  rw [hfront, List.length_cons]
  exact Nat.lt_succ_self _

-- The grammar of expressions, on the tokens that are popped one by one.
def readFrom (table : Shorthands) (stack : List Opening) (queue : Queue) :
    Except ReadError (Option Expr) × Queue :=
  match _h : queue.next with
  | (.error error, after) => (.error error, after)
  | (.ok none, after) => (Input.atEnd stack, after)
  | (.ok (some token), after) =>
    match Reader.feed table stack token with
    | .done e => (.ok (some e), after)
    | .failed error => (.error error, after)
    | .more stack => readFrom table stack after
termination_by queue.items.length
decreasing_by exact length_items_lt ‹_›

def read (table : Shorthands) (queue : Queue) : Except ReadError (Option Expr) × Queue :=
  readFrom table [] queue

theorem exists_next {queue : Queue} {item : Item} {rest : List Item}
    (h : queue.items = item :: rest) :
    ∃ after, queue.next = (item.answer, after) ∧ after.items = rest := by
  obtain ⟨current, later⟩ := queue
  induction later generalizing current with
  | nil =>
    rcases current with _ | ⟨_ | _, current⟩ <;> cases h
    · exact ⟨⟨current, []⟩, rfl, rfl⟩
    · exact ⟨⟨current, []⟩, rfl, rfl⟩
  | cons line later ih =>
    rcases current with _ | ⟨_ | _, current⟩
    · exact ih line h
    · cases h
      exact ⟨⟨current, line :: later⟩, rfl, rfl⟩
    · cases h
      exact ⟨⟨current, line :: later⟩, rfl, rfl⟩

theorem next_of_items_nil {queue : Queue} (h : queue.items = []) :
    queue.next = (.ok none, ⟨[], []⟩) := by
  obtain ⟨current, later⟩ := queue
  obtain ⟨rfl, hlater⟩ := List.append_eq_nil_iff.mp h
  induction later with
  | nil => rfl
  | cons line later ih =>
    obtain ⟨rfl, hlater⟩ := List.append_eq_nil_iff.mp hlater
    exact ih hlater hlater

theorem readFrom_eq (table : Shorthands) (stack : List Opening) (queue : Queue) :
    readFrom table stack queue = match queue.next with
      | (.error error, after) => (.error error, after)
      | (.ok none, after) => (Input.atEnd stack, after)
      | (.ok (some token), after) =>
        match Reader.feed table stack token with
        | .done e => (.ok (some e), after)
        | .failed error => (.error error, after)
        | .more stack => readFrom table stack after := by
  rw [readFrom]
  split <;> simp_all

-- Reading from the queue takes what reading from a list of tokens does, and where those do not
-- suffice it goes on with the items after them.
theorem readFrom_tokens (table : Shorthands) (stack : List Opening) (tokens : List String)
    (later : List Item) (queue : Queue)
    (h : queue.items = tokens.map (.token ·.toList) ++ later) :
    ∃ after, match Reader.readTokensFrom table stack tokens with
      | (.ok e, rest) =>
        readFrom table stack queue = (.ok (some e), after) ∧
          after.items = rest.map (.token ·.toList) ++ later
      | (.error error, rest) =>
        (readFrom table stack queue = (.error error, after) ∧
          after.items = rest.map (.token ·.toList) ++ later) ∨
        ∃ stack', error = Reader.endError stack' ∧
          readFrom table stack queue = readFrom table stack' after ∧ after.items = later := by
  induction tokens generalizing stack queue with
  | nil => exact ⟨queue, .inr ⟨stack, rfl, rfl, h⟩⟩
  | cons token tokens ih =>
    obtain ⟨after, hnext, hafter⟩ := exists_next h
    rw [Item.answer, String.ofList_toList] at hnext
    rw [Reader.readTokensFrom, readFrom_eq, hnext]
    dsimp only
    cases Reader.feed table stack token with
    | done e => exact ⟨after, rfl, hafter⟩
    | more stack' => exact ih stack' after hafter
    | failed error => exact ⟨after, .inl ⟨rfl, hafter⟩⟩

end Queue

-- A source of tokens and expressions.
structure Port (σ : Type) where
  next : σ → Except ReadError (Option String) × σ
  read : σ → Except ReadError (Option Expr) × σ
  discardLine : σ → σ

namespace Port

inductive Step where
  | next
  | read
  | discardLine

inductive Answer where
  | token (result : Except ReadError (Option String))
  | form (result : Except ReadError (Option Expr))
  | dropped

variable {σ τ : Type}

def take (port : Port σ) (state : σ) : Step → Answer × σ
  | .next => (port.next state).map .token id
  | .read => (port.read state).map .form id
  | .discardLine => (.dropped, port.discardLine state)

def answers (port : Port σ) (state : σ) : List Step → List Answer
  | [] => []
  | step :: steps => (port.take state step).1 :: port.answers (port.take state step).2 steps

-- The same answer, and states that go together.
def Agree (R : σ → τ → Prop) {α : Type} (answer : α × σ) (other : α × τ) : Prop :=
  answer.1 = other.1 ∧ R answer.2 other.2

structure Refines (port : Port σ) (other : Port τ) (R : σ → τ → Prop) : Prop where
  next : ∀ s t, R s t → Agree R (port.next s) (other.next t)
  read : ∀ s t, R s t → Agree R (port.read s) (other.read t)
  discardLine : ∀ s t, R s t → R (port.discardLine s) (other.discardLine t)

theorem Refines.take {port : Port σ} {other : Port τ} {R : σ → τ → Prop}
    (h : port.Refines other R) {s : σ} {t : τ} (hstates : R s t) (step : Step) :
    Agree R (port.take s step) (other.take t step) := by
  cases step with
  | next =>
    obtain ⟨hanswer, hafter⟩ := h.next s t hstates
    exact ⟨congrArg Answer.token hanswer, hafter⟩
  | read =>
    obtain ⟨hanswer, hafter⟩ := h.read s t hstates
    exact ⟨congrArg Answer.form hanswer, hafter⟩
  | discardLine => exact ⟨rfl, h.discardLine s t hstates⟩

theorem Refines.answers {port : Port σ} {other : Port τ} {R : σ → τ → Prop}
    (h : port.Refines other R) {s : σ} {t : τ} (hstates : R s t) (steps : List Step) :
    port.answers s steps = other.answers t steps := by
  induction steps generalizing s t with
  | nil => rfl
  | cons step steps ih =>
    obtain ⟨hanswer, hafter⟩ := h.take hstates step
    rw [Port.answers, Port.answers, hanswer, ih hafter]

end Port

def Queue.port (table : Shorthands) : Port Queue :=
  ⟨Queue.next, Queue.read table, Queue.discardLine⟩

namespace Input

open Token

def port (table : Shorthands) : Port Input := ⟨next, read table, discardLine⟩

-- What is left of a text is what there is on its lines.
def Holds (input : Input) (queue : Queue) : Prop :=
  input.Unbroken ∧ queue = ⟨lineItems input.rest, input.lines.map lineItems⟩

theorem pop_lineItems (line : List Char) (later : List (List Item)) :
    Queue.pop (lineItems line) later = match scan line with
      | .token text rest => (.ok (some (String.ofList text)), ⟨lineItems rest, later⟩)
      | .unterminated => (.error .unterminatedString, ⟨[], later⟩)
      | .blank => Queue.pop [] later := by
  cases hscan : scan line with
  | token text rest => rw [lineItems_of_token hscan, Queue.pop]
  | unterminated => rw [lineItems_of_unterminated hscan, Queue.pop]
  | blank => rw [lineItems_of_blank hscan]

theorem lineItems_nil : lineItems [] = [] := lineItems_of_blank rfl

theorem holds_splitLines (text : List Char) :
    (ofLines (splitLines text)).Holds ⟨[], (splitLines text).map lineItems⟩ :=
  ⟨fun _ hmem => (isLine_of_mem_splitLines hmem).2, by rw [ofLines, lineItems_nil]⟩

theorem holds_ofText (text : String) :
    (ofText text).Holds ⟨[], (splitLines text.toList).map lineItems⟩ :=
  holds_splitLines text.toList

theorem pullToken_agrees (lines : List (List Char)) (h : (ofLines lines).Unbroken) :
    Port.Agree Holds (pullToken lines) (Queue.pop [] (lines.map lineItems)) := by
  induction lines with
  | nil => exact ⟨rfl, h, by rw [pullToken, lineItems_nil]; rfl⟩
  | cons line lines ih =>
    obtain ⟨hline, hlines⟩ : line ≠ [] ∧ (ofLines lines).Unbroken := List.forall_mem_cons.mp h
    rw [pullToken, if_neg hline, List.map_cons, Queue.pop, pop_lineItems]
    cases scan line with
    | token text rest => exact ⟨rfl, hlines, rfl⟩
    | unterminated => exact ⟨rfl, hlines, by rw [lineItems_nil]⟩
    | blank => exact ih hlines

theorem next_agrees {input : Input} {queue : Queue} (h : input.Holds queue) :
    Port.Agree Holds input.next queue.next := by
  obtain ⟨hunbroken, rfl⟩ := h
  rw [next, Queue.next, pop_lineItems]
  cases scan input.rest with
  | token text rest => exact ⟨rfl, hunbroken, rfl⟩
  | unterminated => exact ⟨rfl, hunbroken, by rw [discardLine, lineItems_nil]⟩
  | blank => exact pullToken_agrees input.lines hunbroken

theorem discardLine_holds {input : Input} {queue : Queue} (h : input.Holds queue) :
    input.discardLine.Holds queue.discardLine := by
  obtain ⟨hunbroken, rfl⟩ := h
  exact ⟨hunbroken, by rw [discardLine, Queue.discardLine, lineItems_nil]⟩

theorem readFrom_lineItems (table : Shorthands) (stack : List Opening) (line : List Char)
    (later : List (List Item)) :
    Queue.readFrom table stack ⟨lineItems line, later⟩ = match advance table stack line with
      | .form e rest => (.ok (some e), ⟨lineItems rest, later⟩)
      | .failed error rest => (.error error, ⟨lineItems rest, later⟩)
      | .starved stack => Queue.readFrom table stack ⟨[], later⟩ := by
  fun_induction advance table stack line with
  | case1 stack line text rest hscan e hfeed =>
    simp only [Queue.readFrom_eq, Queue.next, pop_lineItems, hscan, hfeed]
  | case2 stack line text rest hscan error hfeed =>
    simp only [Queue.readFrom_eq, Queue.next, pop_lineItems, hscan, hfeed]
  | case3 stack line text rest hscan stack' hfeed ih =>
    rw [Queue.readFrom_eq, Queue.next, pop_lineItems, hscan, ← ih]
    simp only [hfeed]
  | case4 stack line hscan =>
    simp only [Queue.readFrom_eq, Queue.next, pop_lineItems, hscan, lineItems_nil]
  | case5 stack line hscan => rw [lineItems_of_blank hscan]

theorem readLines_agrees (table : Shorthands) (lines : List (List Char)) (stack : List Opening)
    (h : (ofLines lines).Unbroken) :
    Port.Agree Holds (readLines table stack lines)
      (Queue.readFrom table stack ⟨[], lines.map lineItems⟩) := by
  induction lines generalizing stack with
  | nil =>
    rw [readLines, Queue.readFrom_eq]
    exact ⟨rfl, h, by rw [lineItems_nil]; rfl⟩
  | cons line lines ih =>
    obtain ⟨hline, hlines⟩ : line ≠ [] ∧ (ofLines lines).Unbroken := List.forall_mem_cons.mp h
    have hmove : Queue.readFrom table stack ⟨[], (line :: lines).map lineItems⟩ =
        Queue.readFrom table stack ⟨lineItems line, lines.map lineItems⟩ := by
      rw [Queue.readFrom_eq, Queue.readFrom_eq]
      rfl
    rw [hmove, readFrom_lineItems, readLines, if_neg hline]
    cases advance table stack line with
    | form e rest => exact ⟨rfl, hlines, rfl⟩
    | failed error rest => exact ⟨rfl, hlines, rfl⟩
    | starved stack' => exact ih stack' hlines

theorem read_agrees (table : Shorthands) {input : Input} {queue : Queue} (h : input.Holds queue) :
    Port.Agree Holds (input.read table) (queue.read table) := by
  obtain ⟨hunbroken, rfl⟩ := h
  rw [read, Queue.read, readFrom_lineItems]
  cases advance table [] input.rest with
  | form e rest => exact ⟨rfl, hunbroken, rfl⟩
  | failed error rest => exact ⟨rfl, hunbroken, rfl⟩
  | starved stack => exact readLines_agrees table input.lines stack hunbroken

theorem port_refines (table : Shorthands) : (port table).Refines (Queue.port table) Holds where
  next _ _ := next_agrees
  read _ _ := read_agrees table
  discardLine _ _ := discardLine_holds

theorem map_lineItems_of_itemized {lines : List (List Char)} {items : List (List Item)}
    (hlines : ∀ line ∈ lines, IsLine line) (h : List.Forall₂ Itemized lines items) :
    lines.map lineItems = items := by
  induction h with
  | nil => rfl
  | cons hfirst _ ih =>
    obtain ⟨hline, hlater⟩ := List.forall_mem_cons.mp hlines
    rw [List.map_cons, lineItems_of_itemized hline hfirst, ih hlater]

-- Reading on from what is left of a text is reading on from a queue: what there is on each line is
-- settled before the first step, and the steps only take it from the front.
theorem answers_eq_queue (table : Shorthands) (text : String) :
    ∃ lines, List.Forall₂ Itemized (splitLines text.toList) lines ∧
      (∀ other, List.Forall₂ Itemized (splitLines text.toList) other → other = lines) ∧
      ∀ steps, (port table).answers (ofText text) steps =
        (Queue.port table).answers ⟨[], lines⟩ steps := by
  have hisLine : ∀ line ∈ splitLines text.toList, IsLine line := fun line h =>
    (isLine_of_mem_splitLines h).1
  have hitems : ∀ line ∈ splitLines text.toList, Itemized line (lineItems line) := by
    intro line hmem
    obtain ⟨items, h⟩ := exists_itemized line
    rwa [lineItems_of_itemized (hisLine line hmem) h]
  refine ⟨(splitLines text.toList).map lineItems, ?_, ?_, ?_⟩
  · exact List.forall₂_map_right_iff.mpr (List.forall₂_same.mpr hitems)
  · exact fun other h => (map_lineItems_of_itemized hisLine h).symm
  · exact (port_refines table).answers (holds_ofText text)

end Input

end Lisplet
