import Lisplet.Eval.Basic

namespace ExceptT

-- What a computation that may fail comes to on a state, and the state afterwards.
def on (action : ExceptT ε (StateM σ) α) (state : σ) : Except ε α × σ := action.run.run state

theorem on_bind (action : ExceptT ε (StateM σ) α) (f : α → ExceptT ε (StateM σ) β) (state : σ) :
    (action >>= f).on state = match action.on state with
      | (.ok a, after) => (f a).on after
      | (.error error, after) => (.error error, after) := by
  simp only [on, run_bind, StateT.run_bind]
  rcases action.run.run state with ⟨error | a, after⟩ <;> rfl

theorem on_bind_of_ok {action : ExceptT ε (StateM σ) α} {state after : σ} {a : α}
    (h : action.on state = (.ok a, after)) (f : α → ExceptT ε (StateM σ) β) :
    (action >>= f).on state = (f a).on after := by
  rw [on_bind, h]

theorem on_bind_of_error {action : ExceptT ε (StateM σ) α} {state after : σ} {error : ε}
    (h : action.on state = (.error error, after)) (f : α → ExceptT ε (StateM σ) β) :
    (action >>= f).on state = (.error error, after) := by
  rw [on_bind, h]

end ExceptT

namespace Lisplet

namespace EvalM

theorem on_lookup (scope : FrameId) (name : String) (machine : Machine) :
    (lookup scope name).on machine = match machine.store.lookup? scope name with
      | some value => (.ok value, machine)
      | none => (.error (.ofEvalError (.unbound name)), machine) := by
  have hget : (get : EvalM Machine).on machine = (.ok machine, machine) := rfl
  rw [lookup, ExceptT.on_bind_of_ok hget]
  cases machine.store.lookup? scope name <;> rfl

theorem on_enter (params : List String) (args : List Expr) (outer : FrameId) (machine : Machine) :
    (enter params args outer).on machine =
      match machine.store.enter? params args (some outer) with
      | some (scope, store) => (.ok scope, { machine with store := store })
      | none => (.error (.ofEvalError (.argumentCount params.length args.length)), machine) := by
  have hget : (get : EvalM Machine).on machine = (.ok machine, machine) := rfl
  rw [enter, ExceptT.on_bind_of_ok hget]
  cases machine.store.enter? params args (some outer) <;> rfl

-- The counter goes up for the action and down again after it.
theorem on_nested (action : EvalM α) (machine : Machine) :
    (nested action).on machine =
      let (result, after) := action.on { machine with depth := machine.depth + 1 }
      (result, { after with depth := after.depth - 1 }) := rfl

-- What is logged where a limit is reached.
def depthWarning (limit : Int) : List LogRecord :=
  if (Number.int limit).printable then
    [⟨.warning, "evaluator.depth_exceeded max_depth=" ++ toString limit⟩]
  else []

theorem on_guardDepth (limit : Int) (machine : Machine) :
    (guardDepth limit).on machine =
      if limit ≤ machine.depth then
        (.error (.ofEvalError (.tooDeep limit)),
          { machine with log := machine.log ++ depthWarning limit })
      else (.ok (), machine) := by
  have hget : (get : EvalM Machine).on machine = (.ok machine, machine) := rfl
  rw [guardDepth, ExceptT.on_bind_of_ok hget, depthWarning]
  split
  · split
    · rfl
    · rw [List.append_nil]
      rfl
  · rfl

theorem on_guardDepth_of_le {limit : Int} {machine : Machine} (h : limit ≤ machine.depth) :
    (guardDepth limit).on machine = (.error (.ofEvalError (.tooDeep limit)),
      { machine with log := machine.log ++ depthWarning limit }) := by
  rw [on_guardDepth, if_pos h]

theorem on_guardDepth_of_not_le {limit : Int} {machine : Machine} (h : ¬limit ≤ machine.depth) :
    (guardDepth limit).on machine = (.ok (), machine) := by
  rw [on_guardDepth, if_neg h]

end EvalM

namespace Eval

theorem on_evalWithin_of_le {limit : Int} {machine : Machine} (h : limit ≤ machine.depth)
    (room : Nat) (scope : FrameId) (e : Expr) :
    (evalWithin limit room scope e).on machine =
      (.error (.ofEvalError (.tooDeep limit)),
        { machine with log := machine.log ++ EvalM.depthWarning limit }) := by
  cases room <;> exact ExceptT.on_bind_of_error (EvalM.on_guardDepth_of_le h) _

theorem on_evalWithin_zero {limit : Int} {machine : Machine} (h : ¬limit ≤ machine.depth)
    (scope : FrameId) (e : Expr) :
    (evalWithin limit 0 scope e).on machine =
      (.error (.ofEvalError .hostStackExhausted), machine) :=
  ExceptT.on_bind_of_ok (EvalM.on_guardDepth_of_not_le h) _

theorem on_evalWithin_succ {limit : Int} {machine : Machine} (h : ¬limit ≤ machine.depth)
    (room : Nat) (scope : FrameId) (e : Expr) :
    (evalWithin limit (room + 1) scope e).on machine =
      (EvalM.nested ((step scope e).run (evalWithin limit room))).on machine :=
  ExceptT.on_bind_of_ok (EvalM.on_guardDepth_of_not_le h) _

end Eval

-- A plan ends at the first request that fails.
theorem Plan.on_run_ask (evaluate : Rule) (request : Request) (next : Expr → Plan α)
    (machine : Machine) :
    ((Plan.ask request next).run evaluate).on machine =
      match (request.perform evaluate).on machine with
      | (.ok answer, after) => ((next answer).run evaluate).on after
      | (.error failure, after) => (.error failure, after) := by
  rw [Plan.run, ExceptT.on_bind]
  rcases (request.perform evaluate).on machine with ⟨_ | _, _⟩ <;> rfl

namespace Request

theorem on_perform_define (evaluate : Rule) (scope : FrameId) (name : String) (value : Expr)
    (machine : Machine) :
    ((define scope name value).perform evaluate).on machine =
      (.ok value, { machine with store := machine.store.define scope name value }) := rfl

theorem on_perform_call (evaluate : Rule) (params : List String) (body : Expr) (scope : FrameId)
    (args : List Expr) (machine : Machine) :
    ((call params body scope args).perform evaluate).on machine =
      match machine.store.enter? params args (some scope) with
      | some (inner, store) => (evaluate inner body).on { machine with store := store }
      | none => (.error (.ofEvalError (.argumentCount params.length args.length)), machine) := by
  rw [perform, ExceptT.on_bind, EvalM.on_enter]
  cases machine.store.enter? params args (some scope) <;> rfl

end Request

end Lisplet
