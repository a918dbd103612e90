import Lisplet.Proofs.Eval.Timeline

namespace Lisplet

-- Requests in the order in which they are made, each with its answer.
abbrev Trace : Type := List (Request × Expr)

namespace Plan

-- The plan makes these requests and no others, and if they are answered so it ends with the result.
inductive EndsIn : Plan α → Trace → α → Prop
  | done (result : α) : EndsIn (.done result) [] result
  | ask (request : Request) (next : Expr → Plan α) (answer : Expr) (trace : Trace) (result : α)
      (h : EndsIn (next answer) trace result) :
      EndsIn (.ask request next) ((request, answer) :: trace) result

@[simp] theorem endsIn_pure_iff {a result : α} {trace : Trace} :
    (pure a : Plan α).EndsIn trace result ↔ trace = [] ∧ a = result := by
  constructor
  · intro h
    cases h
    exact ⟨rfl, rfl⟩
  · rintro ⟨rfl, rfl⟩
    exact .done a

@[simp] theorem not_endsIn_fail {error : EvalError} {trace : Trace} {result : α} :
    ¬(fail error : Plan α).EndsIn trace result := by
  rintro ⟨⟩

@[simp] theorem endsIn_evaluate_iff {scope : FrameId} {e result : Expr} {trace : Trace} :
    (evaluate scope e).EndsIn trace result ↔ trace = [(.evaluate scope e, result)] := by
  constructor
  · rintro (_ | ⟨_, _, _, _, _, ⟨⟩⟩)
    rfl
  · rintro rfl
    exact .ask _ _ _ _ _ (.done result)

theorem EndsIn.bind {plan : Plan α} {f : α → Plan β} {trace later : Trace} {a : α} {b : β}
    (h : plan.EndsIn trace a) (hf : (f a).EndsIn later b) :
    (plan >>= f).EndsIn (trace ++ later) b := by
  induction h with
  | done a => exact hf
  | ask request next answer trace a _ ih => exact .ask _ _ answer _ b (ih hf)

theorem exists_of_endsIn_bind {plan : Plan α} {f : α → Plan β} {trace : Trace} {b : β}
    (h : (plan >>= f).EndsIn trace b) :
    ∃ first later a, trace = first ++ later ∧ plan.EndsIn first a ∧ (f a).EndsIn later b := by
  induction plan generalizing trace with
  | done a => exact ⟨[], trace, a, rfl, .done a, h⟩
  | fail error => cases h
  | ask request next ih =>
    rcases h with _ | ⟨_, _, answer, trace, _, h⟩
    obtain ⟨first, later, a, rfl, hfirst, hlater⟩ := ih answer h
    exact ⟨(request, answer) :: first, later, a, rfl, .ask _ _ _ _ _ hfirst, hlater⟩

-- A result that is only worked on asks for nothing more.
theorem endsIn_map_iff {plan : Plan α} {f : α → β} {trace : Trace} {b : β} :
    (do return f (← plan) : Plan β).EndsIn trace b ↔ ∃ a, plan.EndsIn trace a ∧ f a = b := by
  constructor
  · intro h
    obtain ⟨first, later, a, rfl, hfirst, hlater⟩ := exists_of_endsIn_bind h
    obtain ⟨rfl, hresult⟩ := endsIn_pure_iff.mp hlater
    exact ⟨a, by rwa [List.append_nil], hresult⟩
  · rintro ⟨a, h, rfl⟩
    have hpure : (pure (f a) : Plan β).EndsIn [] (f a) := .done (f a)
    have hbind : (do return f (← plan) : Plan β).EndsIn (trace ++ []) (f a) := h.bind hpure
    rwa [List.append_nil] at hbind

end Plan

-- The requests are performed one after the other, each on the machine that the one before it has
-- left, and all are answered as they are in the trace.
inductive Trace.Performed (watched : WatchedRule) : Trace → Machine → List Moment → Machine → Prop
  | nil (machine : Machine) : Performed watched [] machine [] machine
  | cons (request : Request) (answer : Expr) (trace : Trace) (machine next after : Machine)
      (moments : List Moment)
      (hrequest : (request.perform watched.evaluate).on machine = (.ok answer, next))
      (htrace : Performed watched trace next moments after) :
      Performed watched ((request, answer) :: trace) machine
        (request.moments watched machine ++ moments) after

namespace Plan

variable {watched : WatchedRule} {plan : Plan α} {trace : Trace} {result : α}
  {machine after : Machine} {moments : List Moment}

-- A plan that is answered along a trace ends as the trace does, and nothing else is to be seen.
theorem EndsIn.on_run (h : plan.EndsIn trace result)
    (hperformed : trace.Performed watched machine moments after) :
    (plan.run watched.evaluate).on machine = (.ok result, after) ∧
      plan.moments watched machine = moments := by
  induction h generalizing machine moments with
  | done a =>
    cases hperformed
    exact ⟨rfl, rfl⟩
  | ask request next answer trace a _ ih =>
    rcases hperformed with _ | ⟨_, _, _, _, _, _, moments, hrequest, htrace⟩
    obtain ⟨hrun, hmoments⟩ := ih htrace
    rw [on_run_ask, Plan.moments, hrequest]
    exact ⟨hrun, congrArg (request.moments watched machine ++ ·) hmoments⟩

theorem exists_performed (watched : WatchedRule)
    (h : (plan.run watched.evaluate).on machine = (.ok result, after)) :
    ∃ trace, plan.EndsIn trace result ∧
      trace.Performed watched machine (plan.moments watched machine) after := by
  induction plan generalizing machine with
  | done a =>
    cases h
    exact ⟨[], .done _, .nil _⟩
  | fail error => cases h
  | ask request next ih =>
    rw [on_run_ask] at h
    rw [moments]
    rcases hperform : (request.perform watched.evaluate).on machine with ⟨failure | answer, later⟩
    · rw [hperform] at h
      cases h
    · rw [hperform] at h
      obtain ⟨trace, htrace, hperformed⟩ := ih answer h
      exact ⟨(request, answer) :: trace, .ask _ _ _ _ _ htrace,
        .cons _ _ _ _ _ _ _ hperform hperformed⟩

end Plan

end Lisplet
