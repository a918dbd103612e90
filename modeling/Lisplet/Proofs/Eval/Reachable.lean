import Lisplet.Proofs.Eval.Sound

namespace Lisplet

-- Stores that come of a fresh global scope. Every evaluation may take place in any scope that has
-- been made until then, and end well or not.
inductive Reachable : Store → Prop
  | start : Reachable .global
  | eval (limit : Int) (room : Nat) (scope : FrameId) (e : Expr) (machine : Machine)
      (h : Reachable machine.store) (hscope : scope < machine.store.next) (he : e.ClosureFree) :
      Reachable ((Eval.evalWithin limit room scope e).on machine).2.store

-- Every scope leads to the global one, and no closure captures a scope that has not been made.
structure Store.WellFormed (store : Store) : Prop where
  grounded : ∀ id < store.next, store.Grounded id
  captures : ∀ id frame, store.frame? id = some frame → ∀ binding ∈ frame.bindings,
    binding.2.Has (.ofScopes (· < store.next))

theorem Store.Sound.grounded_captures {scope : FrameId → Prop} {store : Store}
    (h : store.Sound (.ofScopes scope)) : store.WellFormed where
  grounded _ hid := h.toRooted.grounded hid
  captures id frame hframe binding hbinding := h.values id frame hframe binding hbinding trivial

theorem Store.WellFormed.rooted {store : Store} (h : store.WellFormed) (hpos : 0 < store.next) :
    store.Rooted where
  root := by
    obtain ⟨chain, hchain, holder, -⟩ := h.grounded 0 hpos
    cases hchain with
    | outermost id frame hframe houter => exact ⟨frame, hframe, houter⟩
    | inner id outer frame rest hframe houter hrest =>
      obtain ⟨tail, rfl⟩ := hrest.head_eq
      exact absurd (List.rel_of_pairwise_cons holder List.mem_cons_self) (Nat.not_lt_zero outer)
  inner id frame hframe hid := by
    obtain ⟨chain, hchain, holder, hlast, -⟩ := h.grounded id (lt_next_of_frame? hframe)
    cases hchain with
    | outermost => exact absurd (Option.some.inj hlast) hid
    | inner _ outer found rest hfound houter hrest =>
      obtain ⟨tail, rfl⟩ := hrest.head_eq
      rw [hframe] at hfound
      cases hfound
      exact ⟨outer, List.rel_of_pairwise_cons holder List.mem_cons_self, houter⟩

theorem Store.WellFormed.sound {t : Traits} {store : Store} (h : store.WellFormed)
    (hpos : 0 < store.next) (hvalues : ∀ id frame, store.frame? id = some frame →
      ∀ binding ∈ frame.bindings, t.name binding.1 → binding.2.Has t) : store.Sound t where
  toRooted := h.rooted hpos
  values id frame hframe binding hbinding hname :=
    (hvalues id frame hframe binding hbinding hname).within
      (h.captures id frame hframe binding hbinding)

theorem Moment.Sound.store {t : Traits} {moment : Moment} (h : moment.Sound t) :
    moment.machine.store.Sound t ∧ moment.scope < moment.machine.store.next := by
  cases moment with
  | began => exact ⟨h.1, h.2.1⟩
  | bound => exact h
  | left => exact h

theorem Eval.sound_of_closureFree (limit : Int) (room : Nat) {scope : FrameId} {e : Expr}
    (machine : Machine) (hstore : machine.store.Sound (.ofScopes fun _ => True))
    (hscope : scope < machine.store.next) (he : e.ClosureFree) :
    SoundEnd (.ofScopes fun _ => True) (Traits.ofScopes fun _ => True).Value machine.store
        ((evalWithin limit room scope e).on machine) ∧
      ∀ moment ∈ momentsWithin limit room scope e machine, moment.Sound (.ofScopes fun _ => True) :=
  watched_sound (Traits.closed_ofScopes _) limit room scope e machine hstore hscope
    (he.has_within machine.store.next)

theorem Reachable.sound {store : Store} (h : Reachable store) :
    store.Sound (.ofScopes fun _ => True) := by
  induction h with
  | start => exact Store.sound_global _
  | eval limit room scope e machine _ hscope he ih =>
    exact (Eval.sound_of_closureFree limit room machine ih hscope he).1.store

-- Between evaluations and at every moment of one the store is well formed, and the value of one
-- captures nothing but scopes that have been made. No link between scopes ever changes.
theorem Reachable.wellFormed {store : Store} (h : Reachable store) :
    store.WellFormed ∧
      ∀ limit room scope e (machine : Machine), machine.store = store → scope < store.next →
        e.ClosureFree →
          let outcome := (Eval.evalWithin limit room scope e).on machine
          let moments := Eval.momentsWithin limit room scope e machine
          outcome.2.store.WellFormed ∧
            (∀ value, outcome.1 = .ok value → value.Has (.ofScopes (· < outcome.2.store.next))) ∧
            (∀ moment ∈ moments, moment.machine.store.WellFormed ∧
              moment.scope < moment.machine.store.next) ∧
            Course Store.KeepsLinks store moments outcome.2.store := by
  refine ⟨h.sound.grounded_captures, ?_⟩
  rintro limit room scope e machine rfl hscope he
  obtain ⟨hend, hmoments⟩ := Eval.sound_of_closureFree limit room machine h.sound hscope he
  refine ⟨hend.store.grounded_captures, hend.result, fun moment hmoment => ?_, ?_⟩
  · obtain ⟨hstore, hat⟩ := (hmoments moment hmoment).store
    exact ⟨hstore.grounded_captures, hat⟩
  · exact Eval.watched_follows Store.keepsLinks_advances limit room scope e machine

theorem Reachable.wellFormed_of_captured_scope :
    let e : Expr := .list [.list [.symbol "lambda", .list [.symbol "x"],
      .list [.symbol "lambda", .list [], .symbol "x"]], .number (.int 1)]
    let machine := ((Eval.evalWithin 50 9 0 e).on Machine.start).2
    let definition : Expr := .list [.symbol "def", .symbol "y", .bool true]
    let outcome := (Eval.evalWithin 50 9 1 definition).on machine
    machine.store.next = 2 ∧ machine.store.WellFormed ∧ outcome.2.store.WellFormed ∧
      ∀ value, outcome.1 = .ok value → value.Has (.ofScopes (· < outcome.2.store.next)) := by
  intro e machine definition outcome
  have hnext : machine.store.next = 2 := rfl
  have he : e.ClosureFree := by simp [e, Expr.ClosureFree, Traits.ofScopes]
  have hreachable : Reachable machine.store := .eval 50 9 0 e Machine.start .start (by decide) he
  obtain ⟨hstore, heval⟩ := Reachable.wellFormed hreachable
  obtain ⟨hafter, hvalue, -⟩ := heval 50 9 1 definition machine rfl (by rw [hnext]; decide)
    (by simp [definition, Expr.ClosureFree, Traits.ofScopes])
  exact ⟨hnext, hstore, hafter, hvalue⟩

end Lisplet
