import Lisplet.Proofs.Eval.Course
import Lisplet.Proofs.Eval.Traits
import Lisplet.Proofs.Store.Sound

namespace Lisplet

-- A scope in which something is going on, and the expression that is evaluated there if one is.
def Moment.Sound (t : Traits) : Moment → Prop
  | began scope e machine =>
    machine.store.Sound t ∧ scope < machine.store.next ∧ t.Value machine.store.next e
  | bound scope _ machine | left scope machine =>
    machine.store.Sound t ∧ scope < machine.store.next

-- How a run ends that starts from a sound store.
structure SoundEnd (t : Traits) (result : Nat → α → Prop) (before : Store)
    (outcome : Except Failure α × Machine) : Prop where
  store : outcome.2.store.Sound t
  next_le : before.next ≤ outcome.2.store.next
  result : ∀ a, outcome.1 = .ok a → result outcome.2.store.next a

theorem SoundEnd.of_error {t : Traits} {result : Nat → α → Prop} {machine : Machine}
    (h : machine.store.Sound t) (failure : Failure) :
    SoundEnd t result machine.store (.error failure, machine) :=
  ⟨h, Nat.le_refl _, fun _ hresult => by cases hresult⟩

def WatchedRule.Sound (t : Traits) (watched : WatchedRule) : Prop :=
  ∀ scope e (machine : Machine), machine.store.Sound t → scope < machine.store.next →
    t.Value machine.store.next e →
      SoundEnd t t.Value machine.store ((watched.evaluate scope e).on machine) ∧
        ∀ moment ∈ watched.moments scope e machine, moment.Sound t

section

variable {t : Traits} {watched : WatchedRule}

theorem Request.sound (hsound : watched.Sound t) {request : Request} (machine : Machine)
    (hstore : machine.store.Sound t) (h : request.Has (t.within machine.store.next)) :
    SoundEnd t t.Value machine.store ((request.perform watched.evaluate).on machine) ∧
      ∀ moment ∈ request.moments watched machine, moment.Sound t := by
  cases request with
  | lookup scope name =>
    refine ⟨?_, by simp [moments]⟩
    rw [perform, EvalM.on_lookup]
    cases hlookup : machine.store.lookup? scope name with
    | none => exact .of_error hstore _
    | some value =>
      refine ⟨hstore, Nat.le_refl _, ?_⟩
      rintro _ ⟨⟩
      exact hstore.lookup? h.2 hlookup
  | define scope name value =>
    obtain ⟨hscope, hname, hvalue⟩ := h
    have hdefined := hstore.define scope name hvalue
    have hnext := Store.next_define machine.store scope name value
    rw [on_perform_define]
    refine ⟨⟨hdefined, Nat.le_of_eq hnext.symm, ?_⟩, List.forall_mem_singleton.mpr ⟨hdefined, ?_⟩⟩
    · rintro _ ⟨⟩
      exact hvalue.within_mono (Nat.le_of_eq hnext.symm)
    · exact Nat.lt_of_lt_of_eq hscope hnext.symm
  | evaluate scope e => exact hsound scope e machine hstore h.1 h.2
  | call params body captured args =>
    rw [on_perform_call, moments]
    cases henter : machine.store.enter? params args (some captured) with
    | none => exact ⟨.of_error hstore _, by simp⟩
    | some entered =>
      obtain ⟨inner, store⟩ := entered
      obtain ⟨-, rfl, rfl⟩ := Store.exists_alloc_of_enter? henter
      obtain ⟨halloc, hinner, hbody⟩ := hstore.enter h.1 h.2
      obtain ⟨hend, hmoments⟩ := hsound machine.store.next body
        { machine with store := machine.store.alloc _ } halloc hinner hbody
      refine ⟨⟨hend.store, Nat.le_trans (Nat.le_of_lt hinner) hend.next_le, hend.result⟩, ?_⟩
      refine List.forall_mem_append.mpr ⟨hmoments, List.forall_mem_singleton.mpr ⟨hend.store, ?_⟩⟩
      exact Nat.lt_of_lt_of_le hinner hend.next_le

theorem Plan.sound (hsound : watched.Sound t) {result : Nat → α → Prop} {plan : Plan α}
    (machine : Machine) (hstore : machine.store.Sound t)
    (h : plan.Has t result machine.store.next) :
    SoundEnd t result machine.store ((plan.run watched.evaluate).on machine) ∧
      ∀ moment ∈ plan.moments watched machine, moment.Sound t := by
  induction plan generalizing machine with
  | done a =>
    refine ⟨⟨hstore, Nat.le_refl _, ?_⟩, by simp [moments]⟩
    rintro _ ⟨⟩
    exact h
  | fail error => exact ⟨.of_error hstore _, by simp [moments]⟩
  | ask request next ih =>
    obtain ⟨hend, hmoments⟩ := request.sound hsound machine hstore h.1
    rw [moments, on_run_ask]
    rcases hperform : (request.perform watched.evaluate).on machine with ⟨failure | answer, after⟩
    · rw [hperform] at hend
      exact ⟨⟨hend.store, hend.next_le, fun _ hresult => by cases hresult⟩, by simpa using hmoments⟩
    · rw [hperform] at hend
      obtain ⟨hlast, hlater⟩ := ih answer after hend.store
        (h.2 after.store.next hend.next_le answer (hend.result answer rfl))
      exact ⟨⟨hlast.store, Nat.le_trans hend.next_le hlast.next_le, hlast.result⟩,
        List.forall_mem_append.mpr ⟨hmoments, hlater⟩⟩

end

theorem Eval.watched_sound {t : Traits} (ht : t.Closed) (limit : Int) (room : Nat) :
    (watched limit room).Sound t := by
  induction room using Nat.strongRecOn with
  | ind room ih =>
    intro scope e machine hstore hscope he
    have hbegan : Moment.Sound t (.began scope e machine) := ⟨hstore, hscope, he⟩
    rcases stops_or_steps limit room scope e machine with
      ⟨failure, after, hrun, hsame, hmoments⟩ | ⟨less, hless, hrun, hmoments⟩
    · simp only [watched, hmoments, hrun]
      rw [← hsame] at hstore ⊢
      exact ⟨.of_error hstore failure, List.forall_mem_singleton.mpr hbegan⟩
    · simp only [watched, hmoments, hrun]
      obtain ⟨hend, hlater⟩ := Plan.sound (ih less hless)
        { machine with depth := machine.depth + 1 } hstore (step_has ht hscope he)
      exact ⟨⟨hend.store, hend.next_le, hend.result⟩, List.forall_mem_cons.mpr ⟨hbegan, hlater⟩⟩

end Lisplet
