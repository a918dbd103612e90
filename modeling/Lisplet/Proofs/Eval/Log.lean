import Lisplet.Proofs.Eval.Run

namespace Lisplet

namespace Machine

-- The same machine with older records in its log.
def logged (earlier : List LogRecord) (machine : Machine) : Machine :=
  { machine with log := earlier ++ machine.log }

-- The same state of affairs, whatever has been logged.
structure SameButLog (machine other : Machine) : Prop where
  store : other.store = machine.store
  depth : other.depth = machine.depth

end Machine

namespace EvalM

-- What has been logged before has no say in what comes, and stays in front of it.
def IgnoresLog (action : EvalM α) : Prop :=
  ∀ earlier machine, action.on (machine.logged earlier) =
    ((action.on machine).1, (action.on machine).2.logged earlier)

theorem ignoresLog_fail (error : EvalError) : (fail error : EvalM α).IgnoresLog :=
  fun _ _ => rfl

theorem IgnoresLog.bind {action : EvalM α} {f : α → EvalM β} (h : action.IgnoresLog)
    (hf : ∀ a, (f a).IgnoresLog) : (action >>= f).IgnoresLog := by
  intro earlier machine
  rw [ExceptT.on_bind, ExceptT.on_bind, h]
  rcases action.on machine with ⟨failure | a, after⟩
  · rfl
  · exact hf a earlier after

theorem IgnoresLog.nested {action : EvalM α} (h : action.IgnoresLog) :
    (nested action).IgnoresLog := by
  intro earlier machine
  have hdeeper : { machine.logged earlier with depth := (machine.logged earlier).depth + 1 } =
      Machine.logged earlier { machine with depth := machine.depth + 1 } := rfl
  rw [on_nested, on_nested, hdeeper, h]
  rfl

theorem ignoresLog_guardDepth (limit : Int) : (guardDepth limit).IgnoresLog := by
  intro earlier machine
  have hdepth : (machine.logged earlier).depth = machine.depth := rfl
  rw [on_guardDepth, on_guardDepth, hdepth]
  split
  · simp only [Machine.logged, List.append_assoc]
  · rfl

-- Machines that differ in their logs stay so.
theorem IgnoresLog.on {action : EvalM α} (h : action.IgnoresLog) {machine other : Machine}
    (hsame : machine.SameButLog other) : (action.on other).1 = (action.on machine).1 ∧
      (action.on machine).2.SameButLog (action.on other).2 := by
  obtain ⟨_, _, log⟩ := machine
  obtain ⟨store, depth, otherLog⟩ := other
  obtain ⟨rfl, rfl⟩ := hsame
  have hlogged (earlier : List LogRecord) :
      (⟨store, depth, earlier⟩ : Machine) = Machine.logged earlier ⟨store, depth, []⟩ := by
    rw [Machine.logged, List.append_nil]
  rw [hlogged log, hlogged otherLog, h, h]
  exact ⟨rfl, rfl, rfl⟩

end EvalM

theorem Request.perform_ignoresLog {evaluate : Rule} (h : ∀ scope e, (evaluate scope e).IgnoresLog)
    (request : Request) : (request.perform evaluate).IgnoresLog := by
  intro earlier machine
  have hstore : (machine.logged earlier).store = machine.store := rfl
  cases request with
  | lookup scope name =>
    rw [perform, EvalM.on_lookup, EvalM.on_lookup, hstore]
    split <;> rfl
  | define scope name value => rfl
  | evaluate scope e => exact h scope e earlier machine
  | call params body scope args =>
    rw [on_perform_call, on_perform_call, hstore]
    split
    · next inner store _ => exact h inner body earlier { machine with store := store }
    · rfl

theorem Plan.run_ignoresLog {evaluate : Rule} (h : ∀ scope e, (evaluate scope e).IgnoresLog)
    (plan : Plan α) : (plan.run evaluate).IgnoresLog := by
  induction plan with
  | done result => exact fun _ _ => rfl
  | fail error => exact EvalM.ignoresLog_fail error
  | ask request next ih => exact (request.perform_ignoresLog h).bind ih

theorem Eval.evalWithin_ignoresLog (limit : Int) (room : Nat) (scope : FrameId) (e : Expr) :
    (evalWithin limit room scope e).IgnoresLog := by
  induction room generalizing scope e with
  | zero => exact (EvalM.ignoresLog_guardDepth limit).bind fun _ => EvalM.ignoresLog_fail _
  | succ room ih =>
    exact (EvalM.ignoresLog_guardDepth limit).bind fun _ => (Plan.run_ignoresLog ih _).nested

end Lisplet
