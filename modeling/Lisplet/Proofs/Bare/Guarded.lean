import Lisplet.Proofs.Bare.Form
import Lisplet.Proofs.Number
import Lisplet.Proofs.Store.Frame

namespace Lisplet

namespace BareM

theorem on_tryCatch (action : BareM α) (handle : Raised → BareM α) (machine : Machine) :
    (tryCatch action handle).on machine = match action.on machine with
      | (.ok a, after) => (.ok a, after)
      | (.error raised, after) => (handle raised).on after := by
  rcases hon : action.on machine with ⟨a | a, after⟩
  · have hrun : StateT.run action machine = (.error a, after) := hon
    simp only [ExceptT.on, tryCatch, tryCatchThe, MonadExceptOf.tryCatch, ExceptT.tryCatch, ExceptT.run_mk,
      StateT.run_bind, hrun]
    rfl
  · have hrun : StateT.run action machine = (.ok a, after) := hon
    simp only [ExceptT.on, tryCatch, tryCatchThe, MonadExceptOf.tryCatch, ExceptT.tryCatch, ExceptT.run_mk,
      StateT.run_bind, hrun]
    rfl

end BareM

namespace Bare

-- The outcome of a computation is the same as that of evaluation. An integer without text in the
-- message of an error is the only accident.
inductive Agrees : Except Raised α → Except Failure α → Prop
  | value (a : α) : Agrees (.ok a) (.ok a)
  | error (error : EvalError) : Agrees (.error (.error error)) (.error (.eval error))
  | noText (error : EvalError) (shown : Expr) (n : Int) (hinserted : inserted? error = some shown)
      (hn : shown.Shows n) (hlong : Nat.pow 10 Number.digitLimit ≤ n.natAbs) :
      Agrees (.error (.accident (.noText n))) (.error (.ofEvalError error))

theorem agrees_signal (error : EvalError) :
    Agrees (.error (signal error) : Except Raised α) (.error (.ofEvalError error)) := by
  rcases signal_cases error with
    ⟨hsignal, hprintable⟩ | ⟨shown, n, hsignal, hinserted, hn, hlong⟩
  · rw [hsignal, Failure.ofEvalError, if_pos hprintable]
    exact .error error
  · rw [hsignal]
    refine .noText error shown n hinserted hn ?_
    rw [Number.printable, decide_eq_false_iff_not, Nat.not_lt] at hlong
    exact hlong

end Bare

namespace BareM

open Bare

-- The computation leaves every machine as evaluation does, and comes to the same.
def Follows (bare : BareM α) (action : EvalM α) : Prop :=
  ∀ machine, (bare.on machine).2 = (action.on machine).2 ∧
    Agrees (bare.on machine).1 (action.on machine).1

theorem follows_pure (a : α) : Follows (pure a) (pure a) := fun _ => ⟨rfl, .value a⟩

theorem follows_raise (error : EvalError) :
    Follows (liftM (Bare.raise error : Raises α)) (EvalM.fail error) :=
  fun _ => ⟨rfl, agrees_signal error⟩

theorem Follows.bind {bare : BareM α} {action : EvalM α} {f : α → BareM β} {g : α → EvalM β}
    (h : bare.Follows action) (hf : ∀ a, (f a).Follows (g a)) :
    Follows (bare >>= f) (action >>= g) := by
  intro machine
  rw [ExceptT.on_bind, ExceptT.on_bind]
  obtain ⟨hafter, hagrees⟩ := h machine
  rcases hbare : bare.on machine with ⟨raised, after⟩
  rcases hmodel : action.on machine with ⟨outcome, after'⟩
  rw [hbare, hmodel] at hafter hagrees
  obtain rfl : after = after' := hafter
  cases hagrees with
  | value a => exact hf a after
  | error error => exact ⟨rfl, .error error⟩
  | noText error shown n hinserted hn hlong => exact ⟨rfl, .noText error shown n hinserted hn hlong⟩

theorem lookup_follows (scope : FrameId) (name : String) :
    Follows (Bare.lookup scope name) (EvalM.lookup scope name) := by
  intro machine
  have hget : (get : BareM Machine).on machine = (.ok machine, machine) := rfl
  rw [Bare.lookup, ExceptT.on_bind, hget, EvalM.on_lookup, Store.lookup?]
  dsimp only
  cases hfind : machine.store.find? scope name with
  | none => exact ⟨rfl, agrees_signal (.unbound name)⟩
  | some found =>
    obtain ⟨frame, value, hframe, hvalue⟩ := Store.exists_binding_of_find? hfind
    have hbinding : (Bare.binding found name).on machine = (.ok value, machine) := by
      rw [Bare.binding, ExceptT.on_bind, hget]
      dsimp only
      rw [hframe]
      dsimp only
      rw [hvalue]
      rfl
    simp only [hbinding, Option.bind_some, hframe, hvalue]
    exact ⟨trivial, .value value⟩

theorem enter_follows (params : List String) (args : List Expr) (outer : FrameId) :
    Follows (Bare.enter params args outer) (EvalM.enter params args outer) := by
  intro machine
  rw [Bare.enter, ExceptT.on_bind, EvalM.on_enter, Store.enter?]
  by_cases h : params.length = args.length
  · have hrequire : (liftM (Bare.require (decide (params.length = args.length))
        (.argumentCount params.length args.length)) : BareM Unit).on machine = (.ok (), machine) := by
      rw [decide_eq_true h]
      rfl
    rw [hrequire, if_pos h]
    exact ⟨rfl, .value _⟩
  · have hrequire : (liftM (Bare.require (decide (params.length = args.length))
        (.argumentCount params.length args.length)) : BareM Unit).on machine =
          (.error (Bare.signal (.argumentCount params.length args.length)), machine) := by
      rw [decide_eq_false h]
      rfl
    rw [hrequire, if_neg h]
    exact ⟨rfl, agrees_signal _⟩

end BareM

open BareM

theorem Request.bare_follows {rule : BareRule} {evaluate : Rule}
    (h : ∀ scope e, (rule scope e).Follows (evaluate scope e)) (request : Request) :
    (request.bare rule).Follows (request.perform evaluate) := by
  cases request with
  | lookup scope name => exact lookup_follows scope name
  | define scope name value => exact fun machine => ⟨rfl, .value value⟩
  | evaluate scope e => exact h scope e
  | call params body scope args =>
    exact (enter_follows params args scope).bind fun inner => h inner body

theorem Plan.bare_follows {rule : BareRule} {evaluate : Rule}
    (h : ∀ scope e, (rule scope e).Follows (evaluate scope e)) (plan : Plan α) :
    (plan.bare rule).Follows (plan.run evaluate) := by
  induction plan with
  | done a => exact follows_pure a
  | fail error => exact follows_raise error
  | ask request next ih => exact (request.bare_follows h).bind ih

namespace Bare

theorem guardDepth_follows (limit : Int) : Follows (guardDepth limit) (EvalM.guardDepth limit) := by
  intro machine
  have hget : (get : BareM Machine).on machine = (.ok machine, machine) := rfl
  rw [guardDepth, ExceptT.on_bind_of_ok hget, EvalM.on_guardDepth]
  split
  · cases hlimit : (Number.int limit).printable with
    | true =>
      have htext : (liftM (text (.number (.int limit))) : BareM String).on machine =
          (.ok (Number.int limit).render, machine) := by
        rw [text, if_pos hlimit]
        rfl
      rw [ExceptT.on_bind_of_ok htext, Number.render_int, EvalM.depthWarning, if_pos hlimit]
      exact ⟨rfl, agrees_signal (.tooDeep limit)⟩
    | false =>
      have htext : (liftM (text (.number (.int limit))) : BareM String).on machine =
          (.error (.accident (.noText limit)), machine) := by
        rw [text, if_neg (ne_true_of_eq_false hlimit)]
        rfl
      have hlong : Nat.pow 10 Number.digitLimit ≤ limit.natAbs := by
        rwa [Number.printable, decide_eq_false_iff_not, Nat.not_lt] at hlimit
      rw [ExceptT.on_bind_of_error htext, EvalM.depthWarning, hlimit]
      exact ⟨by simp, .noText (.tooDeep limit) _ limit rfl (.number limit) hlong⟩
  · exact ⟨rfl, .value ()⟩

-- What agrees with evaluation does not say that the host stack is full, so nothing is handled.
theorem onStack_follows {bare : BareM α} {action : EvalM α} (h : bare.Follows action) :
    (onStack bare).Follows action := by
  intro machine
  obtain ⟨hafter, hagrees⟩ := h machine
  rcases hbare : bare.on machine with ⟨raised, after⟩
  rw [hbare] at hafter hagrees
  have hsame : (onStack bare).on machine = (raised, after) := by
    rw [onStack, on_tryCatch, hbare]
    generalize (action.on machine).1 = outcome at hagrees
    cases hagrees <;> rfl
  rw [hsame]
  exact ⟨hafter, hagrees⟩

theorem nested_follows {bare : BareM α} {action : EvalM α} (h : bare.Follows action) :
    (nested bare).Follows (EvalM.nested action) := by
  intro machine
  have hnested : (nested bare).on machine =
      let (raised, after) := bare.on { machine with depth := machine.depth + 1 }
      (raised, { after with depth := after.depth - 1 }) := rfl
  obtain ⟨hafter, hagrees⟩ := h { machine with depth := machine.depth + 1 }
  rw [hnested, EvalM.on_nested]
  exact ⟨congrArg (fun after : Machine => { after with depth := after.depth - 1 }) hafter, hagrees⟩

theorem evalWithin_follows (limit : Int) (room : Nat) (scope : FrameId) (e : Expr) :
    (evalWithin limit room scope e).Follows (Eval.evalWithin limit room scope e) := by
  induction room generalizing scope e with
  | zero =>
    refine (guardDepth_follows limit).bind fun _ machine => ?_
    exact ⟨rfl, agrees_signal .hostStackExhausted⟩
  | succ room ih =>
    refine (guardDepth_follows limit).bind fun _ => ?_
    refine nested_follows (onStack_follows ?_)
    rw [step_eq]
    exact (Eval.step scope e).bare_follows ih

end Bare

-- Spelled out in operations of the host that may all fail, evaluation comes to the same: to a value,
-- to an error of the language, or to an integer without text in the message of such an error. No
-- access out of range, operation on a wrong variant, overflow or division by zero gets out.
theorem Eval.fails_only_by_language_errors (limit : Int) (room : Nat) (scope : FrameId) (e : Expr)
    (machine : Machine) :
    let (raised, after) := (Bare.evalWithin limit room scope e).on machine
    let (outcome, last) := (evalWithin limit room scope e).on machine
    after = last ∧
      ((∃ value, raised = .ok value ∧ outcome = .ok value) ∨
        (∃ error, raised = .error (.error error) ∧ outcome = .error (.eval error)) ∨
        ∃ error shown n, raised = .error (.accident (.noText n)) ∧
          outcome = .error (.ofEvalError error) ∧ Bare.inserted? error = some shown ∧
          shown.Shows n ∧ Nat.pow 10 Number.digitLimit ≤ n.natAbs) := by
  have hfollows := Bare.evalWithin_follows limit room scope e machine
  generalize ExceptT.on (Bare.evalWithin limit room scope e) machine = bare at hfollows ⊢
  generalize ExceptT.on (evalWithin limit room scope e) machine = run at hfollows ⊢
  obtain ⟨raised, after⟩ := bare
  obtain ⟨outcome, last⟩ := run
  obtain ⟨hafter, hagrees⟩ := hfollows
  refine ⟨hafter, ?_⟩
  cases hagrees with
  | value value => exact .inl ⟨value, rfl, rfl⟩
  | error error => exact .inr (.inl ⟨error, rfl, rfl⟩)
  | noText error shown n hinserted hn hlong =>
    exact .inr (.inr ⟨error, shown, n, rfl, rfl, hinserted, hn, hlong⟩)

end Lisplet
