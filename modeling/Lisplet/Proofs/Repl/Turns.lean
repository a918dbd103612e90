import Lisplet.Proofs.Reader.Readings
import Lisplet.Repl

namespace Lisplet.Repl

-- What the loop does between two looks at the input: it asks for a line, it has come to the end of
-- a form, or it cannot read on.
inductive Turn where
  | prompt
  | form (e : Expr)
  | misread (error : ReadError)

namespace Turn

def isPrompt : Turn → Bool
  | prompt => true
  | form _ | misread _ => false

def reading? : Turn → Option (Except ReadError Expr)
  | prompt => none
  | form e => some (.ok e)
  | misread error => some (.error error)

def play (interpreter : Interpreter) (prompt : String) : Turn → ConsoleM Unit
  | .prompt => print prompt
  | form e => do
    match ← attempt (interpreter.evalForm e) with
    | .ok value => printValue value
    | .error failure => report failure
  | misread error => report (.read error)

end Turn

def playAll (interpreter : Interpreter) (prompt : String) : List Turn → ConsoleM Unit
  | [] => return
  | turn :: later => do
    turn.play interpreter prompt
    playAll interpreter prompt later

theorem playAll_append (interpreter : Interpreter) (prompt : String) (turns later : List Turn) :
    playAll interpreter prompt (turns ++ later) = (do
      playAll interpreter prompt turns
      playAll interpreter prompt later) := by
  induction turns with
  | nil => simp [playAll]
  | cons turn turns ih => simp [playAll, ih]

-- The turns that the rest of a line makes, and what is begun at its end.
def lineTurns (stack : List Opening) (line : List Char) : List Turn × List Opening :=
  match _h : Input.advance .quotes stack line with
  | .form e rest =>
    let (turns, begun) := lineTurns [] rest
    (.form e :: turns, begun)
  | .failed error _ => ([.misread error], [])
  | .starved stack => ([], stack)
termination_by line.length
decreasing_by exact Input.advance_form_lt ‹_›

-- No value and no error of evaluation has a say in what is read.
def turns (stack : List Opening) : List (List Char) → List Turn
  | [] => .prompt :: if stack.isEmpty then [] else [.misread (Reader.endError stack), .prompt]
  | line :: lines =>
    .prompt ::
      if line ≠ [] then
        let (now, begun) := lineTurns stack line
        now ++ turns begun lines
      else if stack.isEmpty then [] else .misread (Reader.endError stack) :: turns [] lines

-- One turn on a line, and the rest of the line after it.
theorem takeForms_step (interpreter : Interpreter) (prompt : String) (stack : List Opening)
    (line : List Char) :
    takeForms interpreter stack line = match Input.advance .quotes stack line with
      | .form e rest => do
        (Turn.form e).play interpreter prompt
        takeForms interpreter [] rest
      | .failed error _ => do
        (Turn.misread error).play interpreter prompt
        return []
      | .starved stack => return stack := by
  rw [takeForms]
  split <;> rename_i hadvance <;> rw [hadvance]
  · simp only [Turn.play, bind_assoc]
    refine bind_congr fun result => ?_
    cases result <;> rfl
  · rfl

theorem takeForms_eq (interpreter : Interpreter) (prompt : String) (stack : List Opening)
    (line : List Char) :
    takeForms interpreter stack line = (do
      playAll interpreter prompt (lineTurns stack line).1
      return (lineTurns stack line).2) := by
  fun_induction lineTurns stack line with
  | case1 stack line e rest hadvance now begun hrest ih =>
    rw [hrest] at ih
    rw [takeForms_step interpreter prompt, hadvance]
    simp only [playAll, bind_assoc, ih]
  | case2 stack line error rest hadvance =>
    rw [takeForms_step interpreter prompt, hadvance]
    simp [playAll]
  | case3 stack line begun hadvance =>
    rw [takeForms_step interpreter prompt, hadvance]
    simp [playAll]

-- The loop plays its turns one after the other and ends the last line.
theorem takeLines_eq (interpreter : Interpreter) (prompt : String) (stack : List Opening)
    (lines : List (List Char)) :
    takeLines interpreter prompt stack lines = (do
      playAll interpreter prompt (turns stack lines)
      print "\n") := by
  induction lines generalizing stack with
  | nil =>
    rw [takeLines, turns]
    cases stack <;> simp [playAll, Turn.play]
  | cons line lines ih =>
    rw [takeLines, turns]
    by_cases hline : line = []
    · cases stack <;> simp [hline, playAll, Turn.play, ih]
    · simp [hline, playAll, playAll_append, Turn.play, ih, takeForms_eq interpreter prompt]

section

open Input

-- A form that ends on the line leaves the rest of the line to the next reading, and a failure
-- leaves it nothing, so the induction is on what is left of the line.
theorem readings_lineTurns {lines : List (List Char)}
    (h : ∀ stack, (turns stack lines).filterMap Turn.reading? =
      readingsAfter .quotes (readLines .quotes stack lines))
    (stack : List Opening) (line : List Char) :
    ((lineTurns stack line).1 ++ turns (lineTurns stack line).2 lines).filterMap Turn.reading? =
      readingsAfter .quotes (match advance .quotes stack line with
        | .form e rest => (.ok (some e), ⟨rest, lines⟩)
        | .failed error rest => (.error error, ⟨rest, lines⟩)
        | .starved stack => readLines .quotes stack lines) := by
  fun_induction lineTurns stack line with
  | case1 stack line e rest hadvance now begun hrest ih =>
    have hread : read .quotes ⟨rest, lines⟩ = match advance .quotes [] rest with
        | .form e rest => (.ok (some e), ⟨rest, lines⟩)
        | .failed error rest => (.error error, ⟨rest, lines⟩)
        | .starved stack => readLines .quotes stack lines := rfl
    rw [hrest, ← hread, ← readings_eq] at ih
    rw [hadvance]
    exact congrArg (.ok e :: ·) ih
  | case2 stack line error rest hadvance =>
    have hlater := (h []).trans (readings_discardLine .quotes ⟨rest, lines⟩).symm
    rw [hadvance]
    exact congrArg (Except.error error :: ·) hlater
  | case3 stack line begun hadvance =>
    rw [hadvance]
    exact h begun

-- The loop comes across what reading comes across.
theorem readings_turns (lines : List (List Char)) (stack : List Opening) :
    (turns stack lines).filterMap Turn.reading? =
      readingsAfter .quotes (readLines .quotes stack lines) := by
  induction lines generalizing stack with
  | nil =>
    have hnone : [] = readings .quotes (discardLine ⟨[], []⟩) :=
      (readings_discardLine .quotes ⟨[], []⟩).symm
    cases stack with
    | nil => rfl
    | cons opening stack =>
      exact congrArg (Except.error (Reader.endError (opening :: stack)) :: ·) hnone
  | cons line lines ih =>
    by_cases hline : line = []
    · have hlater := (ih []).trans (readings_discardLine .quotes ⟨[], lines⟩).symm
      rw [turns, readLines, if_pos hline, if_neg (fun hne => hne hline)]
      cases stack with
      | nil => rfl
      | cons opening stack =>
        exact congrArg (Except.error (Reader.endError (opening :: stack)) :: ·) hlater
    · rw [turns, readLines, if_neg hline, if_pos hline]
      exact readings_lineTurns ih stack line

end

theorem countP_isPrompt_lineTurns (stack : List Opening) (line : List Char) :
    (lineTurns stack line).1.countP Turn.isPrompt = 0 := by
  fun_induction lineTurns stack line with
  | case1 stack line e rest hadvance now begun hrest ih =>
    rw [hrest] at ih
    simpa [Turn.isPrompt] using ih
  | case2 => simp [Turn.isPrompt]
  | case3 => rfl

-- Every line is asked for, and the end after the last one.
theorem length_lt_countP_isPrompt {lines : List (List Char)} (h : ∀ line ∈ lines, line ≠ [])
    (stack : List Opening) : lines.length < (turns stack lines).countP Turn.isPrompt := by
  induction lines generalizing stack with
  | nil => simp [turns, Turn.isPrompt]
  | cons line lines ih =>
    obtain ⟨hline, hlines⟩ := List.forall_mem_cons.mp h
    have hlater := ih hlines (lineTurns stack line).2
    rw [turns, if_pos hline]
    simp only [List.countP_cons, List.countP_append, countP_isPrompt_lineTurns, List.length_cons,
      Turn.isPrompt]
    simpa using hlater

end Lisplet.Repl
