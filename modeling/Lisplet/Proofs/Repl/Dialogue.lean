import Lisplet.Proofs.Eval.Failing
import Lisplet.Proofs.Reader.Item
import Lisplet.Proofs.Repl.Turns

namespace Lisplet

namespace Repl

-- The one line that is printed for a form or a failed reading. There is none for a value or an
-- error with an integer inside that has too many digits.
def reply : Except Failure Expr → Option String
  | .ok value => if value.printable then some (value.render ++ "\n") else none
  | .error .digitLimit => none
  | .error failure => some ("error: " ++ failure.message ++ "\n")

-- Errors that are printed are logged as well.
def noted (failure : Failure) (machine : Machine) : Machine :=
  match failure.languageKind? with
  | none => machine
  | some kind =>
    let record := "repl.error type=" ++ kind ++ " message=" ++ failure.message
    { machine with log := machine.log ++ [⟨.debug, record⟩] }

def Turn.take (interpreter : Interpreter) (prompt : String) (machine : Machine) :
    Turn → Option String × Machine
  | .prompt => (some prompt, machine)
  | form e =>
    match (interpreter.evalForm e).on machine with
    | (.ok value, after) => (reply (.ok value), after)
    | (.error failure, after) => (reply (.error failure), noted failure after)
  | misread error => (reply (.error (.read error)), noted (.read error) machine)

-- What is printed at each turn, if there is anything to print. Forms are evaluated one after the
-- other on the same machine.
def dialogue (interpreter : Interpreter) (prompt : String) :
    List Turn → Machine → List (Option String)
  | [], _ => []
  | turn :: later, machine =>
    let (said, after) := turn.take interpreter prompt machine
    said :: dialogue interpreter prompt later after

theorem on_print (text : String) (console : Console) :
    (print text).on console = (.ok (), { console with output := console.output ++ text }) := rfl

theorem on_report_of_kind {failure : Failure} {kind : String}
    (h : failure.languageKind? = some kind) (console : Console) :
    (report failure).on console = (.ok (), ⟨noted failure console.machine,
      console.output ++ ("error: " ++ failure.message ++ "\n")⟩) := by
  rw [report, noted, h]
  rfl

theorem on_play_form (interpreter : Interpreter) (prompt : String) (e : Expr) (console : Console) :
    ((Turn.form e).play interpreter prompt).on console =
      match (interpreter.evalForm e).on console.machine with
      | (.ok value, after) => (printValue value).on { console with machine := after }
      | (.error failure, after) => (report failure).on { console with machine := after } := by
  have hattempt : (attempt (interpreter.evalForm e)).on console =
      (.ok ((interpreter.evalForm e).on console.machine).1,
        { console with machine := ((interpreter.evalForm e).on console.machine).2 }) := rfl
  rw [Turn.play, ExceptT.on_bind, hattempt]
  rcases (interpreter.evalForm e).on console.machine with ⟨value | failure, after⟩ <;> rfl

-- A turn prints what there is to print, and without that it ends the loop.
theorem on_play (interpreter : Interpreter) (prompt : String) (turn : Turn) (console : Console) :
    (turn.play interpreter prompt).on console =
      match turn.take interpreter prompt console.machine with
      | (some said, after) => (.ok (), ⟨after, console.output ++ said⟩)
      | (none, after) => (.error .digitLimit, ⟨after, console.output⟩) := by
  cases turn with
  | prompt => rfl
  | misread error =>
    have hkind : (Failure.read error).languageKind? = some "ParserError" := rfl
    exact on_report_of_kind hkind console
  | form e =>
    rw [on_play_form, Turn.take]
    rcases hrun : (interpreter.evalForm e).on console.machine with ⟨failure | value, after⟩
    · obtain ⟨error, rfl⟩ := Eval.evalWithin_failsByError interpreter.limit Eval.hostRoom
        interpreter.scope e console.machine failure (congrArg Prod.fst hrun)
      rcases Failure.ofEvalError_eq_or error with heval | hlimit
      · have hkind : (Failure.eval error).languageKind? = some error.kind.name := rfl
        simp only [heval]
        exact on_report_of_kind hkind { console with machine := after }
      · simp only [hlimit]
        rfl
    · simp only [printValue, reply]
      split <;> rfl

-- Turns are played until one of them has nothing to print.
theorem on_playAll (interpreter : Interpreter) (prompt : String) (turns : List Turn)
    (console : Console) :
    let replies := dialogue interpreter prompt turns console.machine
    let outcome := (playAll interpreter prompt turns).on console
    (∃ texts, replies = texts.map some ∧ outcome.1 = .ok () ∧
        outcome.2.output = console.output ++ String.join texts) ∨
      ∃ texts lost, replies = texts.map some ++ none :: lost ∧ outcome.1 = .error .digitLimit ∧
        outcome.2.output = console.output ++ String.join texts := by
  induction turns generalizing console with
  | nil => exact .inl ⟨[], rfl, rfl, (String.append_empty ..).symm⟩
  | cons turn later ih =>
    rw [dialogue, playAll, ExceptT.on_bind, on_play]
    rcases turn.take interpreter prompt console.machine with ⟨said | said, after⟩
    · exact .inr ⟨[], dialogue interpreter prompt later after, rfl, rfl, by simp⟩
    · rcases ih ⟨after, console.output ++ said⟩ with
        ⟨texts, hreplies, hend, houtput⟩ | ⟨texts, lost, hreplies, hend, houtput⟩
      · exact .inl ⟨said :: texts, by simp [hreplies], hend, by simp [houtput, String.append_assoc]⟩
      · exact .inr ⟨said :: texts, lost, by simp [hreplies], hend,
          by simp [houtput, String.append_assoc]⟩

-- The loop asks for every line of a text and answers everything that reading the text comes
-- across, each form by its value or its error and each failure by its error. It ends well after the
-- last answer, or else where the first answer would take an integer with too many digits.
theorem run_answers_until_textless (interpreter : Interpreter) (prompt text : String)
    (console : Console) :
    let lines := Input.splitLines text.toList
    let asked := turns [] lines
    let replies := dialogue interpreter prompt asked console.machine
    let outcome := (run interpreter prompt lines).on console
    asked.filterMap Turn.reading? = (Input.ofText text).readings .quotes ∧
      lines.length < asked.countP Turn.isPrompt ∧
      ((∃ texts, replies = texts.map some ∧ outcome.1 = .ok () ∧
          outcome.2.output = console.output ++ String.join texts ++ "\n") ∨
        ∃ texts lost, replies = texts.map some ++ none :: lost ∧ outcome.1 = .error .digitLimit ∧
          outcome.2.output = console.output ++ String.join texts) := by
  intro lines asked replies outcome
  have hlines : ∀ line ∈ lines, line ≠ [] := fun line hline =>
    (Input.isLine_of_mem_splitLines hline).2
  have hrun : run interpreter prompt lines = (do
      playAll interpreter prompt asked
      print "\n") := takeLines_eq interpreter prompt [] lines
  refine ⟨(readings_turns lines []).trans (Input.readings_discardLine .quotes ⟨[], lines⟩).symm,
    length_lt_countP_isPrompt hlines [], ?_⟩
  rcases on_playAll interpreter prompt asked console with
    ⟨texts, hreplies, hend, houtput⟩ | ⟨texts, lost, hreplies, hend, houtput⟩
  · left
    refine ⟨texts, hreplies, ?_⟩
    rcases hplay : (playAll interpreter prompt asked).on console with ⟨result, after⟩
    rw [hplay] at hend houtput
    cases hend
    have houtcome : outcome = (.ok (), { after with output := after.output ++ "\n" }) := by
      simp only [outcome, hrun, ExceptT.on_bind, hplay, on_print]
    rw [houtcome]
    exact ⟨rfl, congrArg (· ++ "\n") houtput⟩
  · right
    refine ⟨texts, lost, hreplies, ?_⟩
    rcases hplay : (playAll interpreter prompt asked).on console with ⟨result, after⟩
    rw [hplay] at hend houtput
    cases hend
    have houtcome : outcome = (.error .digitLimit, after) := by
      simp only [outcome, hrun, ExceptT.on_bind, hplay]
    rw [houtcome]
    exact ⟨rfl, houtput⟩

theorem run_ends_at_large_power :
    let text := "((lambda (f) (f (f (f (f (f 10)))))) (lambda (x) (* x x x x x x x x)))\n(+ 1 1)\n"
    let outcome := (run ⟨50, 0⟩ "> " (Input.splitLines text.toList)).on ⟨.start, ""⟩
    outcome.1.mapError Failure.message = .error Failure.digitLimitMessage ∧
      outcome.2.output = "> " := by
  decide +kernel

end Repl

end Lisplet
