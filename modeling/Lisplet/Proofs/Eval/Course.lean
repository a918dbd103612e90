import Lisplet.Proofs.Eval.Timeline
import Lisplet.Proofs.Store.Frame

namespace Lisplet

-- Related are a store and what becomes of it, step by step.
structure Store.Advances (R : Store → Store → Prop) : Prop where
  refl : ∀ store, R store store
  trans : ∀ {first second third}, R first second → R second third → R first third
  define : ∀ store scope name value, R store (store.define scope name value)
  alloc : ∀ store frame, R store (store.alloc frame)

-- The links between scopes never change.
def Store.KeepsLinks (before after : Store) : Prop :=
  ∀ id frame, before.frame? id = some frame →
    ∃ changed, after.frame? id = some changed ∧ changed.outer = frame.outer

theorem Store.keepsLinks_advances : Store.Advances Store.KeepsLinks where
  refl store id frame h := ⟨frame, h, rfl⟩
  trans h h' id frame hframe := by
    obtain ⟨changed, hchanged, houter⟩ := h id frame hframe
    obtain ⟨final, hfinal, houter'⟩ := h' id changed hchanged
    exact ⟨final, hfinal, houter'.trans houter⟩
  define store scope name value id frame h := exists_frame?_define h scope name value
  alloc store added id frame h :=
    ⟨frame, by rw [frame?_alloc_of_ne added (Nat.ne_of_lt (lt_next_of_frame? h)), h], rfl⟩

-- A relation holds from the store at the start to that at every moment, from that at every moment
-- to those at all later ones, and from them all to the store at the end.
structure Course (R : Store → Store → Prop) (before : Store) (moments : List Moment)
    (after : Store) : Prop where
  whole : R before after
  reaches : ∀ moment ∈ moments, R before moment.machine.store
  goesOn : ∀ moment ∈ moments, R moment.machine.store after
  between : moments.Pairwise fun earlier later => R earlier.machine.store later.machine.store

namespace Course

variable {R : Store → Store → Prop} {before middle after : Store} {moments later : List Moment}

theorem nil (h : R before after) : Course R before [] after := ⟨h, by simp, by simp, .nil⟩

theorem single (hR : Store.Advances R) {moment : Moment} (h : R before moment.machine.store) :
    Course R before [moment] moment.machine.store where
  whole := h
  reaches := List.forall_mem_singleton.mpr h
  goesOn := List.forall_mem_singleton.mpr (hR.refl _)
  between := List.pairwise_singleton _ _

theorem append (hR : Store.Advances R) (h : Course R before moments middle)
    (h' : Course R middle later after) : Course R before (moments ++ later) after where
  whole := hR.trans h.whole h'.whole
  reaches moment hmoment := by
    rcases List.mem_append.mp hmoment with hmoment | hmoment
    · exact h.reaches moment hmoment
    · exact hR.trans h.whole (h'.reaches moment hmoment)
  goesOn moment hmoment := by
    rcases List.mem_append.mp hmoment with hmoment | hmoment
    · exact hR.trans (h.goesOn moment hmoment) h'.whole
    · exact h'.goesOn moment hmoment
  between := List.pairwise_append.mpr ⟨h.between, h'.between, fun moment hmoment next hnext =>
    hR.trans (h.goesOn moment hmoment) (h'.reaches next hnext)⟩

theorem of_step (hR : Store.Advances R) (h : R before middle) (h' : Course R middle later after) :
    Course R before later after :=
  (nil h).append hR h'

end Course

-- Every watched run is such a course.
def WatchedRule.Follows (R : Store → Store → Prop) (watched : WatchedRule) : Prop :=
  ∀ scope e (machine : Machine), Course R machine.store (watched.moments scope e machine)
    ((watched.evaluate scope e).on machine).2.store

theorem Request.course {R : Store → Store → Prop} (hR : Store.Advances R)
    {watched : WatchedRule} (h : watched.Follows R) (request : Request) (machine : Machine) :
    Course R machine.store (request.moments watched machine)
      ((request.perform watched.evaluate).on machine).2.store := by
  cases request with
  | lookup scope name =>
    rw [perform, EvalM.on_lookup]
    split <;> exact .nil (hR.refl _)
  | define scope name value => exact .single hR (hR.define machine.store scope name value)
  | evaluate scope e => exact h scope e machine
  | call params body scope args =>
    rw [on_perform_call, moments]
    cases henter : machine.store.enter? params args (some scope) with
    | none => exact .nil (hR.refl _)
    | some entered =>
      obtain ⟨inner, store⟩ := entered
      obtain ⟨-, rfl, rfl⟩ := Store.exists_alloc_of_enter? henter
      let frame : Frame := ⟨Bindings.ofPairs (params.zip args), some scope⟩
      have halloc := hR.alloc machine.store frame
      have hbody := h machine.store.next body { machine with store := machine.store.alloc frame }
      exact .of_step hR halloc (hbody.append hR (.single hR (hR.refl _)))

theorem Plan.course {R : Store → Store → Prop} (hR : Store.Advances R) {watched : WatchedRule}
    (h : watched.Follows R) (plan : Plan α) (machine : Machine) :
    Course R machine.store (plan.moments watched machine)
      ((plan.run watched.evaluate).on machine).2.store := by
  induction plan generalizing machine with
  | done result => exact .nil (hR.refl _)
  | fail error => exact .nil (hR.refl _)
  | ask request next ih =>
    have hrequest := request.course hR h machine
    rw [moments, on_run_ask]
    rcases hperform : (request.perform watched.evaluate).on machine with ⟨failure | answer, after⟩
    · rw [hperform] at hrequest
      simpa using hrequest
    · rw [hperform] at hrequest
      exact hrequest.append hR (ih answer after)

theorem Eval.watched_follows {R : Store → Store → Prop} (hR : Store.Advances R) (limit : Int)
    (room : Nat) : (watched limit room).Follows R := by
  induction room using Nat.strongRecOn with
  | ind room ih =>
    intro scope e machine
    have hbegan : Course R machine.store [.began scope e machine] machine.store :=
      .single hR (hR.refl machine.store)
    rcases stops_or_steps limit room scope e machine with
      ⟨failure, after, hrun, hstore, hmoments⟩ | ⟨less, hless, hrun, hmoments⟩
    · simp only [watched, hmoments, hrun, hstore]
      exact hbegan
    · simp only [watched, hmoments, hrun]
      exact hbegan.append hR
        ((step scope e).course hR (ih less hless) { machine with depth := machine.depth + 1 })

end Lisplet
