import Lisplet.Proofs.Eval.Request

namespace Lisplet

-- However it ends, an evaluation gives back the depth that it takes.
def Rule.Balanced (evaluate : Rule) : Prop :=
  ∀ scope e (machine : Machine), ((evaluate scope e).on machine).2.depth = machine.depth

theorem Request.perform_balanced {evaluate : Rule} (h : evaluate.Balanced) (request : Request)
    (machine : Machine) : ((request.perform evaluate).on machine).2.depth = machine.depth := by
  cases request with
  | lookup scope name =>
    rw [perform, EvalM.on_lookup]
    split <;> rfl
  | define scope name value => rfl
  | evaluate scope e => exact h scope e machine
  | call params body scope args =>
    rw [on_perform_call]
    split
    · exact h _ body _
    · rfl

theorem Eval.evalWithin_balanced (limit : Int) (room : Nat) :
    Rule.Balanced (evalWithin limit room) := by
  induction room using Nat.strongRecOn with
  | ind room ih =>
    intro scope e machine
    by_cases hlimit : limit ≤ machine.depth
    · rw [on_evalWithin_of_le hlimit]
    cases room with
    | zero => rw [on_evalWithin_zero hlimit]
    | succ room =>
      have hrun : (((step scope e).run (evalWithin limit room)).on
          { machine with depth := machine.depth + 1 }).2.depth = machine.depth + 1 :=
        Plan.run_rel (R := fun before after => after.depth = before.depth) (fun _ => rfl)
          (fun h h' => h'.trans h)
          ((step_asks scope e).imp fun request _ =>
            request.perform_balanced (ih room (Nat.lt_succ_self room))) _
      rw [on_evalWithin_succ hlimit, EvalM.on_nested]
      exact congrArg (· - 1) hrun

-- The run ends in a failure of this kind.
def FailsAs (kind : Failure → Prop) : Except Failure α → Prop
  | .ok _ => False
  | .error failure => kind failure

instance (kind : Failure → Prop) [DecidablePred kind] (result : Except Failure α) :
    Decidable (FailsAs kind result) :=
  match result with
  | .ok _ => .isFalse id
  | .error failure => inferInstanceAs (Decidable (kind failure))

-- From this depth the other rule does exactly the same, but where the rule fails in this way.
def Rule.AgreesAt (depth : Nat) (excepted : Failure → Prop) (rule other : Rule) : Prop :=
  ∀ scope e machine, machine.depth = depth → ¬FailsAs excepted ((rule scope e).on machine).1 →
    (other scope e).on machine = (rule scope e).on machine

section

variable {depth : Nat} {excepted : Failure → Prop} {rule other : Rule}

theorem Request.perform_agrees (h : rule.AgreesAt depth excepted other) (request : Request)
    {machine : Machine} (hdepth : machine.depth = depth)
    (hspared : ¬FailsAs excepted ((request.perform rule).on machine).1) :
    (request.perform other).on machine = (request.perform rule).on machine := by
  cases request with
  | lookup scope name => rfl
  | define scope name value => rfl
  | evaluate scope e => exact h scope e machine hdepth hspared
  | call params body scope args =>
    rw [on_perform_call] at hspared ⊢
    rw [on_perform_call]
    cases henter : machine.store.enter? params args (some scope) with
    | none => rfl
    | some entered =>
      rw [henter] at hspared
      exact h _ body { machine with store := entered.2 } hdepth hspared

-- Every request of a plan is performed at the depth at which the plan begins.
theorem Plan.run_agrees (hbalanced : rule.Balanced) (h : rule.AgreesAt depth excepted other)
    (plan : Plan α) {machine : Machine} (hdepth : machine.depth = depth)
    (hspared : ¬FailsAs excepted ((plan.run rule).on machine).1) :
    (plan.run other).on machine = (plan.run rule).on machine := by
  induction plan generalizing machine with
  | done result => rfl
  | fail error => rfl
  | ask request next ih =>
    have hafter := request.perform_balanced hbalanced machine
    have hrequest := request.perform_agrees h hdepth
    rw [on_run_ask] at hspared ⊢
    rw [on_run_ask]
    rcases hperform : (request.perform rule).on machine with ⟨failure | answer, after⟩
    · rw [hperform] at hspared hrequest
      rw [hrequest hspared]
    · rw [hperform] at hspared hrequest hafter
      rw [hrequest id]
      exact ih answer (hafter.trans hdepth) hspared

-- Rules that always do the same at a depth run a plan alike there.
theorem Plan.run_eq (hbalanced : rule.Balanced)
    (h : ∀ scope e machine, machine.depth = depth →
      (other scope e).on machine = (rule scope e).on machine)
    (plan : Plan α) {machine : Machine} (hdepth : machine.depth = depth) :
    (plan.run other).on machine = (plan.run rule).on machine := by
  have hagrees : rule.AgreesAt depth (fun _ => False) other :=
    fun scope e machine hdepth _ => h scope e machine hdepth
  refine plan.run_agrees hbalanced hagrees hdepth ?_
  cases ((plan.run rule).on machine).1 <;> exact id

end

end Lisplet
