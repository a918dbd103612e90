import Lisplet.Reader.Basic
import Lisplet.Token

namespace Lisplet

-- A source that is read line by line. An empty line stands for an end of input that more lines
-- may follow; the end after the last line is final.
structure Input where
  rest : List Char
  lines : List (List Char)

namespace Input

def ofLines (lines : List (List Char)) : Input := ⟨[], lines⟩

-- Lines keep their newline. Only the last may lack one, and it is never empty.
def splitLines : List Char → List (List Char)
  | [] => []
  | c :: chars =>
    if c = '\n' then [c] :: splitLines chars
    else match splitLines chars with
      | [] => [[c]]
      | line :: lines => (c :: line) :: lines

def ofText (text : String) : Input := ofLines (splitLines text.toList)

-- What is left of the current line is dropped.
def discardLine (input : Input) : Input := ⟨[], input.lines⟩

-- The first token of a later line.
def pullToken : List (List Char) → Except ReadError (Option String) × Input
  | [] => (.ok none, ⟨[], []⟩)
  | line :: lines =>
    if line = [] then (.ok none, ⟨[], lines⟩)
    else match Token.scan line with
      | .token text rest => (.ok (some (String.ofList text)), ⟨rest, lines⟩)
      | .unterminated => (.error .unterminatedString, ⟨[], lines⟩)
      | .blank => pullToken lines

-- The next token, or none at an end of input. An unterminated string takes its line with it.
def next (input : Input) : Except ReadError (Option String) × Input :=
  match Token.scan input.rest with
  | .token text rest => (.ok (some (String.ofList text)), ⟨rest, input.lines⟩)
  | .unterminated => (.error .unterminatedString, input.discardLine)
  | .blank => pullToken input.lines

-- How far reading gets on one line.
inductive Advance where
  | form (e : Expr) (rest : List Char)
  | failed (error : ReadError) (rest : List Char)
  | starved (stack : List Opening)

def advance (table : Shorthands) (stack : List Opening) (line : List Char) : Advance :=
  match _h : Token.scan line with
  | .token text rest =>
    match Reader.feed table stack (String.ofList text) with
    | .done e => .form e rest
    | .failed error => .failed error rest
    | .more stack => advance table stack rest
  | .unterminated => .failed .unterminatedString []
  | .blank => .starved stack
termination_by line.length
decreasing_by exact Token.length_scan_lt ‹_›

-- Between expressions the end of input is no error.
def atEnd (stack : List Opening) : Except ReadError (Option Expr) :=
  if stack.isEmpty then .ok none else .error (Reader.endError stack)

def readLines (table : Shorthands) (stack : List Opening) :
    List (List Char) → Except ReadError (Option Expr) × Input
  | [] => (atEnd stack, ⟨[], []⟩)
  | line :: lines =>
    if line = [] then (atEnd stack, ⟨[], lines⟩)
    else match advance table stack line with
      | .form e rest => (.ok (some e), ⟨rest, lines⟩)
      | .failed error rest => (.error error, ⟨rest, lines⟩)
      | .starved stack => readLines table stack lines

-- The next expression, or none at an end of input.
def read (table : Shorthands) (input : Input) : Except ReadError (Option Expr) × Input :=
  match advance table [] input.rest with
  | .form e rest => (.ok (some e), ⟨rest, input.lines⟩)
  | .failed error rest => (.error error, ⟨rest, input.lines⟩)
  | .starved stack => readLines table stack input.lines

-- The characters of the lines, with one more for each line.
def linesSize : List (List Char) → Nat
  | [] => 0
  | line :: lines => line.length + 1 + linesSize lines

def size (input : Input) : Nat := input.rest.length + linesSize input.lines

theorem advance_form_lt {table : Shorthands} {stack : List Opening} {line rest : List Char}
    {e : Expr} (h : advance table stack line = .form e rest) : rest.length < line.length := by
  fun_induction advance table stack line with
  | case1 stack line text after hscan e' hfeed =>
    cases h
    exact Token.length_scan_lt hscan
  | case2 stack line text after hscan error hfeed => cases h
  | case3 stack line text after hscan stack' hfeed ih =>
    exact Nat.lt_trans (ih h) (Token.length_scan_lt hscan)
  | case4 => cases h
  | case5 => cases h

theorem readLines_size_lt {table : Shorthands} {e : Expr} {after : Input}
    (lines : List (List Char)) (stack : List Opening)
    (h : readLines table stack lines = (.ok (some e), after)) :
    after.size < (ofLines lines).size := by
  induction lines generalizing stack with
  | nil => simp [readLines, atEnd] at h; split at h <;> simp at h
  | cons line lines ih =>
    rw [readLines] at h
    split at h
    · simp [atEnd] at h; split at h <;> simp at h
    split at h
    · next rest ha =>
      cases h
      have := advance_form_lt ha
      simp only [size, ofLines, linesSize, List.length_nil]
      omega
    · cases h
    · next stack' _ =>
      have := ih stack' h
      simp only [size, ofLines, linesSize, List.length_nil] at this ⊢
      omega

-- Every expression costs at least one character.
theorem read_size_lt {table : Shorthands} {input after : Input} {e : Expr}
    (h : read table input = (.ok (some e), after)) : after.size < input.size := by
  unfold read at h
  split at h
  · next rest ha =>
    cases h
    have := advance_form_lt ha
    simp only [size]
    omega
  · cases h
  · have := readLines_size_lt input.lines _ h
    simp only [size, ofLines, List.length_nil] at this ⊢
    omega

-- All expressions up to an end of input or the first error.
def readAll (table : Shorthands) (input : Input) : Except ReadError (List Expr) × Input :=
  match _h : read table input with
  | (.ok none, after) => (.ok [], after)
  | (.error error, after) => (.error error, after)
  | (.ok (some e), after) =>
    let (rest, final) := readAll table after
    (rest.map (e :: ·), final)
termination_by input.size
decreasing_by exact read_size_lt ‹_›

end Input

namespace Reader

-- The first expression of a text.
def parse (table : Shorthands) (text : String) : Except ReadError Expr :=
  match ((Input.ofText text).read table).1 with
  | .ok (some e) => .ok e
  | .ok none => .error .nothingToRead
  | .error error => .error error

def parseAll (table : Shorthands) (text : String) : Except ReadError (List Expr) :=
  ((Input.ofText text).readAll table).1

end Reader

end Lisplet
