import Lisplet.Proofs.Eval.Rename
import Lisplet.Proofs.Eval.Sound
import Lisplet.Proofs.Store.Mirror

namespace Lisplet

-- The same state of affairs in other scopes. The logs may differ.
structure Machine.Mirrors (f : FrameId → FrameId) (names : String → Prop)
    (machine image : Machine) : Prop where
  store : machine.store.Mirrors f names image.store
  depth : image.depth = machine.depth

-- Two runs that end alike.
structure MirrorEnd (f : FrameId → FrameId) (names : String → Prop) (onResult : α → β)
    (outcome : Except Failure α × Machine) (outcome' : Except Failure β × Machine) : Prop where
  result : outcome'.1 = relabel (Failure.rename f) onResult outcome.1
  machine : outcome.2.Mirrors f names outcome'.2

theorem MirrorEnd.of_error {f : FrameId → FrameId} {names : String → Prop} {onResult : α → β}
    {machine image : Machine} (h : machine.Mirrors f names image) (error : EvalError) :
    MirrorEnd f names onResult (.error (.ofEvalError error), machine)
      (.error (.ofEvalError (error.rename f)), image) :=
  ⟨congrArg Except.error (Failure.ofEvalError_rename f error), h⟩

-- Evaluation in other scopes goes the same way, as far as the names that count are concerned.
def Rule.Mirrors (f : FrameId → FrameId) (t : Traits) (evaluate : Rule) : Prop :=
  ∀ scope e (machine image : Machine), machine.store.Sound t → scope < machine.store.next →
    t.Value machine.store.next e → machine.Mirrors f t.name image →
      MirrorEnd f t.name (Expr.rename f) ((evaluate scope e).on machine)
        ((evaluate (f scope) (e.rename f)).on image)

section

variable {f : FrameId → FrameId} {t : Traits} {watched : WatchedRule}

theorem Request.perform_mirrors {evaluate : Rule} (hmirrors : evaluate.Mirrors f t)
    (request : Request) {machine image : Machine} (hstore : machine.store.Sound t)
    (h : request.Has (t.within machine.store.next)) (himage : machine.Mirrors f t.name image) :
    MirrorEnd f t.name (Expr.rename f) ((request.perform evaluate).on machine)
      (((request.rename f).perform evaluate).on image) := by
  cases request with
  | lookup scope name =>
    rw [rename, perform, perform, EvalM.on_lookup, EvalM.on_lookup,
      himage.store.lookup? scope h.2]
    cases machine.store.lookup? scope name with
    | none => exact .of_error himage (.unbound name)
    | some value => exact ⟨rfl, himage⟩
  | define scope name value =>
    exact ⟨rfl, himage.store.define scope name value, himage.depth⟩
  | evaluate scope e => exact hmirrors scope e machine image hstore h.1 h.2 himage
  | call params body captured args =>
    rw [rename, on_perform_call, on_perform_call, himage.store.enter?]
    cases henter : machine.store.enter? params args (some captured) with
    | none =>
      simp only [Option.map_none, List.length_map]
      exact .of_error himage (.argumentCount params.length args.length)
    | some entered =>
      obtain ⟨inner, store⟩ := entered
      obtain ⟨-, rfl, rfl⟩ := Store.exists_alloc_of_enter? henter
      obtain ⟨hsound, hinner, hbody⟩ := hstore.enter h.1 h.2
      exact hmirrors machine.store.next body _ _ hsound hinner hbody
        ⟨himage.store.enter params args captured, himage.depth⟩

theorem Plan.run_mirrors (hsound : watched.Sound t) (hmirrors : watched.evaluate.Mirrors f t)
    {result : Nat → α → Prop} {onResult : α → β} {plan : Plan α} {plan' : Plan β}
    (hplan : plan.Mirrors f onResult plan') (machine : Machine) {image : Machine}
    (hstore : machine.store.Sound t) (h : plan.Has t result machine.store.next)
    (himage : machine.Mirrors f t.name image) :
    MirrorEnd f t.name onResult ((plan.run watched.evaluate).on machine)
      ((plan'.run watched.evaluate).on image) := by
  induction hplan generalizing machine image with
  | done a => exact ⟨rfl, himage⟩
  | fail error => exact .of_error himage error
  | ask request next next' _ ih =>
    have hend := (request.sound hsound machine hstore h.1).1
    have hmirror := request.perform_mirrors hmirrors hstore h.1 himage
    rw [on_run_ask, on_run_ask]
    rcases hperform' : ((request.rename f).perform watched.evaluate).on image
      with ⟨outcome', after'⟩
    rw [hperform'] at hmirror
    obtain ⟨rfl, hafter⟩ := hmirror
    rcases hperform : (request.perform watched.evaluate).on machine with ⟨failure | answer, after⟩
    · rw [hperform] at hafter
      exact ⟨rfl, hafter⟩
    · rw [hperform] at hafter hend
      exact ih answer after hend.store
        (h.2 after.store.next hend.next_le answer (hend.result answer rfl)) hafter

end

-- Moving the scopes to other places changes nothing but their numbers in what comes out.
theorem Eval.watched_mirrors {t : Traits} (ht : t.Closed) (f : FrameId → FrameId) (limit : Int)
    (room : Nat) : (watched limit room).evaluate.Mirrors f t := by
  induction room using Nat.strongRecOn with
  | ind room ih =>
    intro scope e machine image hstore hscope he himage
    simp only [watched]
    by_cases hlimit : limit ≤ machine.depth
    · have hlimit' : limit ≤ image.depth := himage.depth ▸ hlimit
      rw [on_evalWithin_of_le hlimit, on_evalWithin_of_le hlimit']
      have hlogged : Machine.Mirrors f t.name
          { machine with log := machine.log ++ EvalM.depthWarning limit }
          { image with log := image.log ++ EvalM.depthWarning limit } :=
        ⟨himage.store, himage.depth⟩
      exact .of_error hlogged (.tooDeep limit)
    have hlimit' : ¬limit ≤ image.depth := himage.depth ▸ hlimit
    cases room with
    | zero =>
      rw [on_evalWithin_zero hlimit, on_evalWithin_zero hlimit']
      exact ⟨rfl, himage⟩
    | succ room =>
      rw [on_evalWithin_succ hlimit, on_evalWithin_succ hlimit', EvalM.on_nested, EvalM.on_nested]
      have hdeeper : Machine.Mirrors f t.name { machine with depth := machine.depth + 1 }
          { image with depth := image.depth + 1 } := ⟨himage.store, congrArg (· + 1) himage.depth⟩
      obtain ⟨hresult, hafter⟩ := Plan.run_mirrors (watched_sound ht limit room)
        (ih room (Nat.lt_succ_self room)) (step_mirrors f scope e)
        { machine with depth := machine.depth + 1 } hstore (step_has ht hscope he) hdeeper
      exact ⟨hresult, hafter.store, congrArg (· - 1) hafter.depth⟩

end Lisplet
