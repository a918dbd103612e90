import Lisplet.Proofs.Eval.Agreement
import Lisplet.Proofs.Eval.Failing
import Lisplet.Proofs.Eval.Log
import Lisplet.Proofs.Eval.Timeline

namespace Lisplet

-- Raises an alarm on a machine that is not as it should be.
def EvalM.insist (alarm : Failure) (holds : Machine → Prop) [DecidablePred holds] : EvalM Unit := do
  if ¬holds (← get) then throw alarm

namespace Eval

-- Evaluation with a check in front of it and of every evaluation inside it. The check is told how
-- many levels deeper evaluation may nest from there.
def checkedWithin (check : Nat → EvalM Unit) (limit : Int) : Nat → Rule
  | 0, _, _ => do
    check 0
    EvalM.guardDepth limit
    EvalM.fail .hostStackExhausted
  | room + 1, scope, e => do
    check (room + 1)
    EvalM.guardDepth limit
    EvalM.nested ((step scope e).run (checkedWithin check limit room))

-- The depth goes up by one from level to level, and only from below the limit.
theorem checkedWithin_eq {check : Nat → EvalM Unit} {limit : Int} {low high : Nat}
    (hcheck : ∀ left (machine : Machine), low ≤ machine.depth →
      (machine.depth : Int) ≤ max (low : Int) limit → machine.depth + left = high →
        (check left).on machine = (.ok (), machine))
    (room : Nat) (scope : FrameId) (e : Expr) (machine : Machine) (hlow : low ≤ machine.depth)
    (hmax : (machine.depth : Int) ≤ max (low : Int) limit) (hhigh : machine.depth + room = high) :
    (checkedWithin check limit room scope e).on machine =
      (evalWithin limit room scope e).on machine := by
  have hpass := hcheck room machine hlow hmax hhigh
  induction room generalizing scope e machine with
  | zero => rw [checkedWithin, ExceptT.on_bind_of_ok hpass, evalWithin]
  | succ room ih =>
    rw [checkedWithin, ExceptT.on_bind_of_ok hpass]
    by_cases hlimit : limit ≤ machine.depth
    · rw [on_evalWithin_of_le hlimit]
      exact ExceptT.on_bind_of_error (EvalM.on_guardDepth_of_le hlimit) _
    · have hguard := EvalM.on_guardDepth_of_not_le hlimit
      have hsame : ∀ scope e (deeper : Machine), deeper.depth = machine.depth + 1 →
          (checkedWithin check limit room scope e).on deeper =
            (evalWithin limit room scope e).on deeper := by
        intro scope e deeper hdepth
        exact ih scope e deeper (by omega) (by omega) (by omega)
          (hcheck room deeper (by omega) (by omega) (by omega))
      rw [on_evalWithin_succ hlimit, ExceptT.on_bind_of_ok hguard, EvalM.on_nested,
        EvalM.on_nested, Plan.run_eq (evalWithin_balanced limit room) hsame _ rfl]

end Eval

-- The error of the guard at a limit.
def Failure.exceeds (limit : Int) : Failure → Bool
  | .eval error =>
    error.isDepth && error.message == "Maximum evaluation depth " ++ toString limit ++ " exceeded"
  | _ => false

-- What is logged before a result comes out: one warning if it is the error of the guard, and
-- otherwise nothing.
def warnings (limit : Int) : Except Failure α → List LogRecord
  | .ok _ => []
  | .error failure =>
    if failure.exceeds limit then
      [⟨.warning, "evaluator.depth_exceeded max_depth=" ++ toString limit⟩]
    else []

namespace Failure

theorem exceeds_tooDeep (limit : Int) : exceeds limit (.eval (.tooDeep limit)) = true := by
  have hdepth : (EvalError.tooDeep limit).isDepth = true := rfl
  have hmessage : (EvalError.tooDeep limit).message =
      "Maximum evaluation depth " ++ toString limit ++ " exceeded" := rfl
  rw [exceeds, hdepth, hmessage, beq_self_eq_true, Bool.and_self]

-- What is said of a full host stack begins with another letter.
theorem exceeds_hostStackExhausted (limit : Int) :
    exceeds limit (.eval .hostStackExhausted) = false := by
  have hmessage : EvalError.hostStackExhausted.message =
      "Python recursion limit reached during evaluation" := rfl
  rw [exceeds, hmessage, Bool.and_eq_false_imp]
  intro _
  rw [beq_eq_false_iff_ne]
  intro h
  have hhead := congrArg (fun text => text.toList.head?) h
  simp at hhead

end Failure

namespace EvalM

-- The log grows by what goes with the result, whatever the machine is like.
def Warns (limit : Int) (action : EvalM α) : Prop :=
  ∀ machine, (action.on machine).2.log = machine.log ++ warnings limit (action.on machine).1

variable {limit : Int}

theorem warnings_ofEvalError {error : EvalError} (h : error.isDepth = false) :
    warnings limit (.error (.ofEvalError error) : Except Failure α) = [] := by
  rcases Failure.ofEvalError_eq_or error with heq | heq <;> simp [warnings, heq, Failure.exceeds, h]

theorem warns_fail {error : EvalError}
    (h : warnings limit (.error (.ofEvalError error) : Except Failure α) = []) :
    (fail error : EvalM α).Warns limit := by
  intro machine
  have hon : (fail error : EvalM α).on machine = (.error (.ofEvalError error), machine) := rfl
  rw [hon, h, List.append_nil]

theorem Warns.bind {action : EvalM α} {f : α → EvalM β} (h : action.Warns limit)
    (hf : ∀ a, (f a).Warns limit) : (action >>= f).Warns limit := by
  intro machine
  have hlog := h machine
  rw [ExceptT.on_bind]
  rcases hon : action.on machine with ⟨failure | a, after⟩
  · rw [hon] at hlog
    exact hlog
  · rw [hon] at hlog
    simp only [warnings, List.append_nil] at hlog
    exact (hf a after).trans (by rw [hlog])

theorem Warns.nested {action : EvalM α} (h : action.Warns limit) : (nested action).Warns limit :=
  fun machine => h { machine with depth := machine.depth + 1 }

theorem warns_guardDepth (limit : Int) : (guardDepth limit).Warns limit := by
  intro machine
  rw [on_guardDepth]
  split
  · cases hlimit : (Number.int limit).printable with
    | true =>
      have herror : Failure.ofEvalError (.tooDeep limit) = .eval (.tooDeep limit) := if_pos hlimit
      simp only [depthWarning, hlimit, herror, warnings, Failure.exceeds_tooDeep, if_pos]
    | false =>
      have herror : Failure.ofEvalError (.tooDeep limit) = .digitLimit :=
        if_neg (ne_true_of_eq_false hlimit)
      simp [depthWarning, hlimit, herror, warnings, Failure.exceeds]
  · simp only [warnings, List.append_nil]

end EvalM

theorem Request.perform_warns {evaluate : Rule} {limit : Int}
    (h : ∀ scope e, (evaluate scope e).Warns limit) (request : Request) :
    (request.perform evaluate).Warns limit := by
  intro machine
  cases request with
  | lookup scope name =>
    rw [perform, EvalM.on_lookup]
    split
    · rw [warnings, List.append_nil]
    · rw [EvalM.warnings_ofEvalError rfl, List.append_nil]
  | define scope name value => rw [on_perform_define, warnings, List.append_nil]
  | evaluate scope e => exact h scope e machine
  | call params body scope args =>
    rw [on_perform_call]
    split
    · next inner store _ => exact h inner body { machine with store := store }
    · rw [EvalM.warnings_ofEvalError rfl, List.append_nil]

theorem Plan.run_warns {evaluate : Rule} {limit : Int}
    (h : ∀ scope e, (evaluate scope e).Warns limit) {scope : FrameId} {whole : Expr}
    {plan : Plan α} (hplan : plan.IsFor scope whole) : (plan.run evaluate).Warns limit := by
  induction plan with
  | done result => exact fun machine => (List.append_nil _).symm
  | fail error => exact EvalM.warns_fail (EvalM.warnings_ofEvalError hplan)
  | ask request next ih =>
    exact (request.perform_warns h).bind fun answer => ih answer (hplan.2 answer)

theorem Eval.evalWithin_warns (limit : Int) (room : Nat) (scope : FrameId) (e : Expr) :
    (evalWithin limit room scope e).Warns limit := by
  induction room generalizing scope e with
  | zero =>
    refine (EvalM.warns_guardDepth limit).bind fun _ => EvalM.warns_fail ?_
    have herror : Failure.ofEvalError .hostStackExhausted = .eval .hostStackExhausted := rfl
    simp only [herror, warnings, Failure.exceeds_hostStackExhausted, Bool.false_eq_true, if_false]
  | succ room ih =>
    exact (EvalM.warns_guardDepth limit).bind fun _ =>
      (Plan.run_warns ih (step_isFor scope e)).nested

theorem Session.final_depth (room : Nat) (entries : List Entry) (machine : Machine) :
    (final room entries machine).depth = machine.depth := by
  induction entries generalizing machine with
  | nil => rfl
  | cons entry rest ih =>
    rw [final, ih, Eval.evalWithin_balanced]

-- A run gives back the depth that it takes, however it ends. Where an evaluation begins inside it,
-- the depth is what it was plus the levels in between, and no more than the limit allows: whoever
-- insists on that there sees no alarm. One warning is logged if the guard ends the run, and nothing
-- otherwise. So it does not matter what was evaluated before, with a value or without, but for the
-- scopes.
theorem Eval.depth_returns_and_guard_warns_once (limit : Int) (room : Nat) (scope : FrameId)
    (e : Expr) :
    (∀ machine : Machine, let outcome := (evalWithin limit room scope e).on machine
      outcome.2.depth = machine.depth ∧
        (∀ alarm : Failure,
          let check := fun left : Nat => EvalM.insist alarm fun inner : Machine =>
            machine.depth ≤ inner.depth ∧ (inner.depth : Int) ≤ max (machine.depth : Int) limit ∧
              inner.depth + left = machine.depth + room
          (checkedWithin check limit room scope e).on machine = outcome) ∧
        outcome.2.log = machine.log ++ warnings limit outcome.1) ∧
      ∀ (entries : List Entry) (store : Store) (log : List LogRecord),
        let later := Session.final room entries ⟨store, 0, log⟩
        let fresh := (evalWithin limit room scope e).on ⟨later.store, 0, []⟩
        (evalWithin limit room scope e).on later = (fresh.1, fresh.2.logged later.log) := by
  refine ⟨fun machine => ⟨evalWithin_balanced limit room scope e machine, fun alarm => ?_,
    evalWithin_warns limit room scope e machine⟩, fun entries store log => ?_⟩
  · refine checkedWithin_eq (fun left inner hlow hmax hhigh => ?_) room scope e machine
      (Nat.le_refl _) (Int.le_max_left _ _) rfl
    have hget : (get : EvalM Machine).on inner = (.ok inner, inner) := rfl
    rw [EvalM.insist, ExceptT.on_bind_of_ok hget, if_neg (not_not_intro ⟨hlow, hmax, hhigh⟩)]
    rfl
  intro later fresh
  have hlater : later = Machine.logged later.log ⟨later.store, 0, []⟩ := by
    have hdepth : later.depth = 0 := Session.final_depth room entries ⟨store, 0, log⟩
    rw [Machine.logged, List.append_nil, ← hdepth]
  calc (evalWithin limit room scope e).on later
    _ = (evalWithin limit room scope e).on (Machine.logged later.log ⟨later.store, 0, []⟩) :=
      congrArg _ hlater
    _ = (fresh.1, fresh.2.logged later.log) :=
      evalWithin_ignoresLog limit room scope e later.log ⟨later.store, 0, []⟩

end Lisplet
