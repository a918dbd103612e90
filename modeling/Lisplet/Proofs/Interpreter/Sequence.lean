import Lisplet.Interpreter
import Lisplet.Proofs.Eval.Log
import Lisplet.Proofs.Eval.Timeline
import Lisplet.Proofs.Reader.Sequence

namespace Lisplet.Interpreter

-- The forms of a program as a session in the scope of the interpreter.
def entries (interpreter : Interpreter) (forms : List Expr) : List Entry :=
  forms.map fun e => ⟨interpreter.limit, interpreter.scope, e⟩

-- What forms come to one after the other, and the machine after all of them. A form that fails
-- does not keep the next one from being evaluated.
def outcomes (interpreter : Interpreter) (forms : List Expr) (machine : Machine) :
    List (Except Failure Expr) :=
  Session.outcomes Eval.hostRoom (interpreter.entries forms) machine

def final (interpreter : Interpreter) (forms : List Expr) (machine : Machine) : Machine :=
  Session.final Eval.hostRoom (interpreter.entries forms) machine

-- The value of the last form, which is the given one if there is none. The first form that fails
-- is the last that is evaluated.
def evalForms (interpreter : Interpreter) : List Expr → Option Expr → EvalM (Option Expr)
  | [], last => return last
  | e :: rest, _ => do evalForms interpreter rest (some (← interpreter.evalForm e))

-- What there is to do where reading has ended.
def finish (fault : Option DecodeError) (error? : Option ReadError) (last : Option Expr) :
    EvalM (Option Expr) :=
  match error?, fault with
  | some error, _ => throw (readFailure fault error)
  | none, some fault => throw (.undecodable fault)
  | none, none => return last

theorem evalForm_ignoresLog (interpreter : Interpreter) (e : Expr) :
    (interpreter.evalForm e).IgnoresLog :=
  Eval.evalWithin_ignoresLog interpreter.limit Eval.hostRoom interpreter.scope e

-- No evaluation has a say in what is read next.
theorem evalInput_eq (interpreter : Interpreter) (fault : Option DecodeError) (input : Input)
    (last : Option Expr) :
    evalInput interpreter fault input last = (do
      let last ← interpreter.evalForms (input.sequence .quotes).forms last
      finish fault (input.sequence .quotes).error? last) := by
  fun_induction evalInput interpreter fault input last with
  | case1 input last after hread error hfault =>
    rw [Input.sequence_eq, hread, hfault]
    rfl
  | case2 input last after hread hfault =>
    rw [Input.sequence_eq, hread, hfault]
    rfl
  | case3 input last error after hread =>
    rw [Input.sequence_eq, hread]
    rfl
  | case4 input last e after hread ih =>
    rw [Input.sequence_eq, hread]
    simp only [Sequence.cons, evalForms, bind_assoc]
    exact bind_congr fun value => ih value

theorem outcomes_cons (interpreter : Interpreter) (e : Expr) (forms : List Expr)
    (machine : Machine) :
    interpreter.outcomes (e :: forms) machine = ((interpreter.evalForm e).on machine).1 ::
      interpreter.outcomes forms ((interpreter.evalForm e).on machine).2 := rfl

theorem final_cons (interpreter : Interpreter) (e : Expr) (forms : List Expr)
    (machine : Machine) :
    interpreter.final (e :: forms) machine =
      interpreter.final forms ((interpreter.evalForm e).on machine).2 := rfl

theorem outcomes_append (interpreter : Interpreter) (forms later : List Expr)
    (machine : Machine) :
    interpreter.outcomes (forms ++ later) machine = interpreter.outcomes forms machine ++
      interpreter.outcomes later (interpreter.final forms machine) := by
  induction forms generalizing machine with
  | nil => rfl
  | cons e forms ih => rw [List.cons_append, outcomes_cons, outcomes_cons, ih]; rfl

theorem final_append (interpreter : Interpreter) (forms later : List Expr) (machine : Machine) :
    interpreter.final (forms ++ later) machine =
      interpreter.final later (interpreter.final forms machine) := by
  induction forms generalizing machine with
  | nil => rfl
  | cons e forms ih => rw [List.cons_append, final_cons, ih]; rfl

-- Either every form has a value, or there is a first one without.
theorem on_evalForms (interpreter : Interpreter) (forms : List Expr) (last : Option Expr)
    (machine : Machine) :
    let outcome := (interpreter.evalForms forms last).on machine
    (∃ before e later failure, ∃ values : List Expr, forms = before ++ e :: later ∧
        interpreter.outcomes (before ++ [e]) machine = values.map .ok ++ [.error failure] ∧
        outcome = (.error failure, interpreter.final (before ++ [e]) machine)) ∨
      ∃ values : List Expr, interpreter.outcomes forms machine = values.map .ok ∧
        outcome = (.ok (values.getLast?.or last), interpreter.final forms machine) := by
  induction forms generalizing last machine with
  | nil => exact .inr ⟨[], rfl, rfl⟩
  | cons e forms ih =>
    intro outcome
    rcases hform : (interpreter.evalForm e).on machine with ⟨failure | value, after⟩
    · refine .inl ⟨[], e, forms, failure, [], rfl, ?_, ?_⟩
      · rw [List.nil_append, outcomes_cons, hform]
        rfl
      · rw [List.nil_append, final_cons, hform]
        exact ExceptT.on_bind_of_error hform _
    · have houtcome : outcome = (interpreter.evalForms forms (some value)).on after :=
        ExceptT.on_bind_of_ok hform _
      rcases ih (some value) after with
        ⟨before, failing, later, failure, values, rfl, houtcomes, hend⟩ | ⟨values, houtcomes, hend⟩
      · refine .inl ⟨e :: before, failing, later, failure, value :: values, rfl, ?_, ?_⟩
        · rw [List.cons_append, outcomes_cons, hform, houtcomes]
          rfl
        · rw [houtcome, hend, List.cons_append, final_cons, hform]
      · refine .inr ⟨value :: values, ?_, ?_⟩
        · rw [outcomes_cons, hform, houtcomes]
          rfl
        · rw [houtcome, hend, final_cons, hform, List.getLast?_cons]
          cases values.getLast? <;> rfl

theorem on_evalInput (interpreter : Interpreter) (fault : Option DecodeError) (input : Input)
    (last : Option Expr) (machine : Machine) :
    (evalInput interpreter fault input last).on machine =
      match (interpreter.evalForms (input.sequence .quotes).forms last).on machine with
      | (.ok last, after) => (finish fault (input.sequence .quotes).error? last).on after
      | (.error failure, after) => (.error failure, after) := by
  rw [evalInput_eq, ExceptT.on_bind]
  rcases (interpreter.evalForms (input.sequence .quotes).forms last).on machine with ⟨_ | _, _⟩ <;>
    rfl

-- If all of a text can be read and every form has a value, that of the last one counts.
theorem on_evalText_of_values {interpreter : Interpreter} {text : String} {machine : Machine}
    {forms values : List Expr} (hforms : Reader.parseAll .quotes text = .ok forms)
    (hvalues : interpreter.outcomes forms machine = values.map .ok) :
    (interpreter.evalText text).on machine =
      (.ok values.getLast?, interpreter.final forms machine) := by
  have hsequence := Input.sequence_of_parseAll hforms
  have hend : (interpreter.evalForms forms none).on machine =
      (.ok values.getLast?, interpreter.final forms machine) := by
    rcases interpreter.on_evalForms forms none machine with
      ⟨before, e, later, failure, values', rfl, houtcomes, -⟩ | ⟨values', houtcomes, hend⟩
    · have hfailed : .error failure ∈ interpreter.outcomes (before ++ e :: later) machine := by
        rw [List.append_cons, outcomes_append, houtcomes]
        simp
      rw [hvalues] at hfailed
      simp at hfailed
    · have hsame : values' = values :=
        (List.map_inj_right fun _ _ => Except.ok.inj).mp (houtcomes.symm.trans hvalues)
      rw [hend, hsame, Option.or_none]
  rw [evalText, on_evalInput, hsequence]
  simp only [hend]
  rfl

-- Evaluating a text form by form is reading all of it first and then evaluating what has been read:
-- the forms take effect in their order up to the first that fails, and what cannot be read counts
-- only after all of them have values.
theorem evalText_reads_first (interpreter : Interpreter) (text : String) (machine : Machine) :
    let sequence := (Input.ofText text).sequence .quotes
    let outcome := (interpreter.evalText text).on machine
    (∃ before e later failure, ∃ values : List Expr, sequence.forms = before ++ e :: later ∧
        interpreter.outcomes (before ++ [e]) machine = values.map .ok ++ [.error failure] ∧
        outcome = (.error failure, interpreter.final (before ++ [e]) machine)) ∨
      ∃ values : List Expr, interpreter.outcomes sequence.forms machine = values.map .ok ∧
        outcome.1 = (match sequence.error? with
          | none => .ok values.getLast?
          | some error => .error (.read error)) ∧
        outcome.2 = interpreter.final sequence.forms machine := by
  intro sequence outcome
  have houtcome := interpreter.on_evalInput none (Input.ofText text) none machine
  rcases interpreter.on_evalForms sequence.forms none machine with
    ⟨before, e, later, failure, values, hforms, houtcomes, hend⟩ | ⟨values, houtcomes, hend⟩
  · rw [hend] at houtcome
    exact .inl ⟨before, e, later, failure, values, hforms, houtcomes, houtcome⟩
  · rw [hend, Option.or_none] at houtcome
    have hfinish : outcome =
        (finish none sequence.error? values.getLast?).on (interpreter.final sequence.forms machine) :=
      houtcome
    refine .inr ⟨values, houtcomes, ?_⟩
    rw [hfinish]
    cases sequence.error? <;> exact ⟨rfl, rfl⟩

end Lisplet.Interpreter
