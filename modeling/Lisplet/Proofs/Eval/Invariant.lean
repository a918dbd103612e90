import Lisplet.Proofs.Eval.Sound

namespace Lisplet

-- Something about stores that outlasts every definition and every call with the traits.
structure Traits.Keeps (t : Traits) (I : Store → Prop) : Prop where
  define : ∀ (store : Store) scope name value, I store → t.name name → t.Value store.next value →
    I (store.define scope name value)
  alloc : ∀ (store : Store) (params : List String) args outer, I store →
    (∀ param ∈ params, t.name param) → t.Values store.next args →
      I (store.alloc ⟨Bindings.ofPairs (params.zip args), some outer⟩)

-- It holds at every moment of a run and at its end.
structure Throughout (I : Store → Prop) (moments : List Moment) (after : Store) : Prop where
  moments : ∀ moment ∈ moments, I moment.machine.store
  after : I after

namespace Throughout

variable {I : Store → Prop} {moments later : List Moment} {middle after : Store}

theorem nil (h : I after) : Throughout I [] after := ⟨by simp, h⟩

theorem append (h : Throughout I moments middle) (h' : Throughout I later after) :
    Throughout I (moments ++ later) after :=
  ⟨List.forall_mem_append.mpr ⟨h.moments, h'.moments⟩, h'.after⟩

theorem cons {moment : Moment} (h : I moment.machine.store) (h' : Throughout I later after) :
    Throughout I (moment :: later) after :=
  ⟨List.forall_mem_cons.mpr ⟨h, h'.moments⟩, h'.after⟩

end Throughout

def WatchedRule.Keeps (t : Traits) (I : Store → Prop) (watched : WatchedRule) : Prop :=
  ∀ scope e (machine : Machine), machine.store.Sound t → scope < machine.store.next →
    t.Value machine.store.next e → I machine.store →
      Throughout I (watched.moments scope e machine)
        ((watched.evaluate scope e).on machine).2.store

section

variable {t : Traits} {I : Store → Prop} {watched : WatchedRule}

theorem Request.keeps (hI : t.Keeps I) (hkeeps : watched.Keeps t I) {request : Request}
    (machine : Machine) (hstore : machine.store.Sound t)
    (h : request.Has (t.within machine.store.next)) (hbefore : I machine.store) :
    Throughout I (request.moments watched machine)
      ((request.perform watched.evaluate).on machine).2.store := by
  cases request with
  | lookup scope name =>
    rw [perform, EvalM.on_lookup]
    split <;> exact .nil hbefore
  | define scope name value =>
    have hdefined := hI.define machine.store scope name value hbefore h.2.1 h.2.2
    exact .cons hdefined (.nil hdefined)
  | evaluate scope e => exact hkeeps scope e machine hstore h.1 h.2 hbefore
  | call params body captured args =>
    rw [on_perform_call, moments]
    cases henter : machine.store.enter? params args (some captured) with
    | none => exact .nil hbefore
    | some entered =>
      obtain ⟨inner, store⟩ := entered
      obtain ⟨-, rfl, rfl⟩ := Store.exists_alloc_of_enter? henter
      obtain ⟨hentered, hinner, hbody⟩ := hstore.enter h.1 h.2
      have hparams : ∀ param ∈ params, t.name param := (Expr.has_closure_iff.mp h.1).1
      have halloc := hI.alloc machine.store params args captured hbefore hparams h.2
      have hcall := hkeeps machine.store.next body { machine with store := machine.store.alloc _ }
        hentered hinner hbody halloc
      exact hcall.append (.cons hcall.after (.nil hcall.after))

theorem Plan.keeps (hI : t.Keeps I) (hsound : watched.Sound t) (hkeeps : watched.Keeps t I)
    {result : Nat → α → Prop} {plan : Plan α} (machine : Machine)
    (hstore : machine.store.Sound t) (h : plan.Has t result machine.store.next)
    (hbefore : I machine.store) :
    Throughout I (plan.moments watched machine)
      ((plan.run watched.evaluate).on machine).2.store := by
  induction plan generalizing machine with
  | done a => exact .nil hbefore
  | fail error => exact .nil hbefore
  | ask request next ih =>
    have hend := (request.sound hsound machine hstore h.1).1
    have hrequest := request.keeps hI hkeeps machine hstore h.1 hbefore
    rw [moments, on_run_ask]
    rcases hperform : (request.perform watched.evaluate).on machine with ⟨failure | answer, after⟩
    · rw [hperform] at hrequest
      exact hrequest.append (.nil hrequest.after)
    · rw [hperform] at hend hrequest
      have hnext := h.2 after.store.next hend.next_le answer (hend.result answer rfl)
      exact hrequest.append (ih answer after hend.store hnext hrequest.after)

end

theorem Eval.watched_keeps {t : Traits} (ht : t.Closed) {I : Store → Prop} (hI : t.Keeps I)
    (limit : Int) (room : Nat) : (watched limit room).Keeps t I := by
  induction room using Nat.strongRecOn with
  | ind room ih =>
    intro scope e machine hstore hscope he hbefore
    rcases stops_or_steps limit room scope e machine with
      ⟨failure, after, hrun, hsame, hmoments⟩ | ⟨less, hless, hrun, hmoments⟩
    · simp only [watched, hmoments, hrun]
      rw [hsame]
      exact .cons hbefore (.nil hbefore)
    · simp only [watched, hmoments, hrun]
      have hstep := Plan.keeps hI (watched_sound ht limit less) (ih less hless)
        { machine with depth := machine.depth + 1 } hstore (step_has ht hscope he) hbefore
      exact .cons hbefore hstep

-- A session in scopes that exist, with expressions that have the traits.
theorem Session.keeps {t : Traits} (ht : t.Closed) {I : Store → Prop} (hI : t.Keeps I)
    (room : Nat) (entries : List Entry) (machine : Machine) (hstore : machine.store.Sound t)
    (h : ∀ entry ∈ entries, entry.scope < machine.store.next ∧
      t.Value machine.store.next entry.e)
    (hbefore : I machine.store) :
    Throughout I (moments room entries machine) (final room entries machine).store ∧
      ∀ value, .ok value ∈ outcomes room entries machine →
        value.Has { t with scope := fun _ => True } := by
  induction entries generalizing machine with
  | nil => exact ⟨.nil hbefore, by simp [outcomes]⟩
  | cons entry rest ih =>
    obtain ⟨limit, scope, e⟩ := entry
    obtain ⟨⟨hscope, he⟩, hrest⟩ := List.forall_mem_cons.mp h
    have hfirst := Eval.watched_keeps ht hI limit room scope e machine hstore hscope he hbefore
    have hend := (Eval.watched_sound ht limit room scope e machine hstore hscope he).1
    obtain ⟨hlater, hvalues⟩ := ih _ hend.store (fun entry hentry =>
      ⟨Nat.lt_of_lt_of_le (hrest entry hentry).1 hend.next_le,
        (hrest entry hentry).2.within_mono hend.next_le⟩) hfirst.after
    refine ⟨hfirst.append hlater, fun value hvalue => ?_⟩
    rcases List.mem_cons.mp hvalue with hvalue | hvalue
    · have hfits : value.Has (t.within _) := hend.result value hvalue.symm
      exact hfits.mono fun _ _ => trivial
    · exact hvalues value hvalue

end Lisplet
