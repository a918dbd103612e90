import Lisplet.Proofs.Eval.Mirror
import Lisplet.Proofs.Eval.Reachable

namespace Lisplet

-- The name is no symbol and no parameter in there, in the bodies of closures neither.
def Expr.Avoids (name : String) (e : Expr) : Prop :=
  e.Has ⟨(· ≠ name), fun _ => True, fun _ => True, fun _ => True⟩

-- No other name has a value that mentions the name.
def Store.Avoids (name : String) (store : Store) : Prop :=
  ∀ id frame, store.frame? id = some frame → ∀ binding ∈ frame.bindings, binding.1 ≠ name →
    binding.2.Avoids name

structure Frame.AgreesExcept (name : String) (frame other : Frame) : Prop where
  outer : other.outer = frame.outer
  find? : ∀ bound ≠ name, other.bindings.find? bound = frame.bindings.find? bound

-- The same scopes with the same links, in which all other names have the same values.
structure Store.AgreesExcept (name : String) (store other : Store) : Prop where
  next : other.next = store.next
  frame : ∀ id frame, store.frame? id = some frame →
    ∃ found, other.frame? id = some found ∧ frame.AgreesExcept name found

theorem Frame.mirrors_id_iff {name : String} {frame other : Frame} :
    frame.Mirrors id (· ≠ name) other ↔ frame.AgreesExcept name other := by
  constructor
  · intro h
    refine ⟨by rw [h.outer, Option.map_id, id], fun bound hbound => ?_⟩
    rw [h.find? bound hbound, Expr.rename_id_eq, Option.map_id, id]
  · intro h
    refine ⟨by rw [h.outer, Option.map_id, id], fun bound hbound => ?_⟩
    rw [h.find? bound hbound, Expr.rename_id_eq, Option.map_id, id]

namespace Store

variable {name : String} {store other : Store}

-- Agreement is being mirrored where every scope keeps its number.
theorem mirrors_id_iff : store.Mirrors id (· ≠ name) other ↔ store.AgreesExcept name other := by
  constructor
  · intro h
    refine ⟨(h.next 0).symm, fun scope frame hframe => ?_⟩
    obtain ⟨found, hfound, hmirrors⟩ := h.frame scope frame hframe
    exact ⟨found, hfound, Frame.mirrors_id_iff.mp hmirrors⟩
  · intro h
    refine ⟨strictMono_id, fun count => by rw [id, h.next], fun scope frame hframe => ?_⟩
    obtain ⟨found, hfound, hagrees⟩ := h.frame scope frame hframe
    exact ⟨found, hfound, Frame.mirrors_id_iff.mpr hagrees⟩

theorem avoids_global (name : String) : global.Avoids name := fun _ _ hframe _ hbinding _ =>
  has_of_global (fun _ => trivial) (fun _ => trivial) hframe hbinding

-- What the name itself stands for is not looked at.
theorem Avoids.define (h : store.Avoids name) (scope : FrameId) (value : Expr) :
    (store.define scope name value).Avoids name := by
  intro id frame hframe binding hbinding hne
  rcases binding_of_define hframe hbinding with rfl | ⟨old, hold, hbinding⟩
  · exact absurd rfl hne
  · exact h id old hold binding hbinding hne

theorem AgreesExcept.of_define (store : Store) (scope : FrameId) (name : String) (value : Expr) :
    (store.define scope name value).AgreesExcept name store where
  next := (next_define store scope name value).symm
  frame id frame hframe := by
    rw [frame?_define] at hframe
    split at hframe
    · obtain ⟨old, hold, rfl⟩ := Option.map_eq_some_iff.mp hframe
      exact ⟨old, hold, rfl, fun bound hbound => by rw [Bindings.find?_put, if_neg hbound]⟩
    · exact ⟨frame, hframe, rfl, fun _ _ => rfl⟩

end Store

-- Two stores that differ in nothing but the bindings of a name look the same to an expression that
-- does not come across the name, neither itself nor in the values of other names.
theorem Eval.unmentioned_name_does_not_interfere (limit : Int) (room : Nat) {name : String}
    {scope : FrameId} {e : Expr} {store other : Store} (depth : Nat) (log : List LogRecord)
    (hstore : store.WellFormed) (hscope : scope < store.next)
    (hcaptures : e.Has (.ofScopes (· < store.next))) (he : e.Avoids name)
    (hvalues : store.Avoids name) (hagrees : store.AgreesExcept name other) :
    let first := (evalWithin limit room scope e).on ⟨store, depth, log⟩
    let second := (evalWithin limit room scope e).on ⟨other, depth, log⟩
    second.1 = first.1 ∧ first.2.store.AgreesExcept name second.2.store := by
  let t : Traits := ⟨(· ≠ name), fun _ => True, fun _ => True, fun _ => True⟩
  have ht : t.Closed := fun _ _ _ _ _ _ => trivial
  have hsound : store.Sound t := hstore.sound (Nat.zero_lt_of_lt hscope) hvalues
  have hmirrors : Machine.Mirrors id t.name ⟨store, depth, log⟩ ⟨other, depth, log⟩ :=
    ⟨Store.mirrors_id_iff.mpr hagrees, rfl⟩
  obtain ⟨hresult, hafter⟩ := watched_mirrors ht id limit room scope e ⟨store, depth, log⟩
    ⟨other, depth, log⟩ hsound hscope (he.within hcaptures) hmirrors
  rw [e.rename_id, relabel_id] at hresult
  rw [e.rename_id] at hafter
  exact ⟨hresult, Store.mirrors_id_iff.mp hafter.store⟩

theorem Eval.unmentioned_name_does_not_interfere_in_call :
    let store := Store.global.define 0 "x" (.symbol "x")
    let double : Expr := .list [.symbol "lambda", .list [.symbol "y"],
      .list [.symbol "+", .symbol "y", .symbol "y"]]
    let e : Expr := .list [.symbol "do", .list [.symbol "def", .symbol "double", double],
      .list [.symbol "double", .number (.int 2)]]
    let first := (evalWithin 50 9 0 e).on ⟨store, 0, []⟩
    let second := (evalWithin 50 9 0 e).on ⟨.global, 0, []⟩
    first.1.toOption.map Expr.render = some "4" ∧ second.1 = first.1 ∧
      first.2.store.AgreesExcept "x" second.2.store := by
  intro store double e first second
  have hsound : store.Sound (.ofScopes fun _ => True) :=
    (Store.sound_global _).define 0 "x" (.symbol "x" trivial)
  have hcaptures : e.Has (.ofScopes (· < store.next)) := by
    simp [e, double, Traits.ofScopes]
  have he : e.Avoids "x" := by simp [e, double, Expr.Avoids]
  exact ⟨by decide +kernel, unmentioned_name_does_not_interfere 50 9 0 []
    hsound.grounded_captures (by decide) hcaptures he
    ((Store.avoids_global "x").define 0 (.symbol "x")) (.of_define .global 0 "x" (.symbol "x"))⟩

end Lisplet
