import Lisplet.Proofs.Eval.Run

namespace Lisplet

-- Whatever ends the computation early is an error of evaluation.
def EvalM.FailsByError (action : EvalM α) : Prop :=
  ∀ machine failure, (action.on machine).1 = .error failure → ∃ error, failure = .ofEvalError error

theorem EvalM.failsByError_fail (error : EvalError) : (fail error : EvalM α).FailsByError := by
  intro machine failure h
  cases h
  exact ⟨error, rfl⟩

theorem EvalM.FailsByError.bind {action : EvalM α} {f : α → EvalM β} (h : action.FailsByError)
    (hf : ∀ a, (f a).FailsByError) : (action >>= f).FailsByError := by
  intro machine failure hfailure
  rw [ExceptT.on_bind] at hfailure
  rcases hon : action.on machine with ⟨outcome, after⟩
  rw [hon] at hfailure
  cases outcome with
  | ok a => exact hf a after failure hfailure
  | error failure' =>
    cases hfailure
    exact h machine failure (by rw [hon])

theorem Request.perform_failsByError {evaluate : Rule}
    (h : ∀ scope e, (evaluate scope e).FailsByError) (request : Request) :
    (request.perform evaluate).FailsByError := by
  cases request with
  | lookup scope name =>
    intro machine failure hfailure
    rw [perform, EvalM.on_lookup] at hfailure
    split at hfailure <;> cases hfailure
    exact ⟨_, rfl⟩
  | define scope name value =>
    intro machine failure hfailure
    cases hfailure
  | evaluate scope e => exact h scope e
  | call params body scope args =>
    intro machine failure hfailure
    rw [on_perform_call] at hfailure
    split at hfailure
    · exact h _ body _ failure hfailure
    · cases hfailure
      exact ⟨_, rfl⟩

theorem Plan.run_failsByError {evaluate : Rule} (h : ∀ scope e, (evaluate scope e).FailsByError)
    (plan : Plan α) : (plan.run evaluate).FailsByError := by
  induction plan with
  | done result =>
    intro machine failure hfailure
    cases hfailure
  | fail error => exact EvalM.failsByError_fail error
  | ask request next ih => exact (request.perform_failsByError h).bind ih

theorem Eval.evalWithin_failsByError (limit : Int) (room : Nat) (scope : FrameId) (e : Expr) :
    (evalWithin limit room scope e).FailsByError := by
  induction room using Nat.strongRecOn generalizing scope e with
  | ind room ih =>
    intro machine failure hfailure
    by_cases hlimit : limit ≤ machine.depth
    · rw [on_evalWithin_of_le hlimit] at hfailure
      exact ⟨.tooDeep limit, (Except.error.inj hfailure).symm⟩
    cases room with
    | zero =>
      rw [on_evalWithin_zero hlimit] at hfailure
      cases hfailure
      exact ⟨_, rfl⟩
    | succ room =>
      rw [on_evalWithin_succ hlimit, EvalM.on_nested] at hfailure
      exact Plan.run_failsByError (ih room (Nat.lt_succ_self room)) _ _ failure hfailure

-- An error is reported as it is, unless its message cannot be made.
theorem Failure.ofEvalError_eq_or (error : EvalError) :
    ofEvalError error = .eval error ∨ ofEvalError error = .digitLimit := by
  rw [ofEvalError]
  split
  · exact .inl rfl
  · exact .inr rfl

end Lisplet
