import Lisplet.Proofs.Expr.Traits
import Lisplet.Proofs.Store.Chain

namespace Lisplet

namespace Bindings

theorem mem_put {name : String} {value : Expr} {bindings : Bindings} {binding : String × Expr}
    (h : binding ∈ put name value bindings) : binding = (name, value) ∨ binding ∈ bindings := by
  induction bindings with
  | nil => exact .inl (List.mem_singleton.mp h)
  | cons first rest ih =>
    obtain ⟨other, old⟩ := first
    rw [put] at h
    split at h
    · rcases List.mem_cons.mp h with h | h
      · exact .inl h
      · exact .inr (List.mem_cons_of_mem _ h)
    · rcases List.mem_cons.mp h with h | h
      · exact .inr (h ▸ List.mem_cons_self)
      · exact (ih h).imp id (List.mem_cons_of_mem _)

theorem mem_ofPairs {pairs : List (String × Expr)} {binding : String × Expr}
    (h : binding ∈ ofPairs pairs) : binding ∈ pairs := by
  suffices hfold : ∀ bindings : Bindings, binding ∈ pairs.foldl (fun bindings pair =>
      put pair.1 pair.2 bindings) bindings → binding ∈ bindings ∨ binding ∈ pairs by
    simpa using hfold [] h
  clear h
  induction pairs with
  | nil => exact fun _ h => .inl h
  | cons pair pairs ih =>
    intro bindings h
    rcases ih _ h with h | h
    · rcases mem_put h with rfl | h
      · exact .inr List.mem_cons_self
      · exact .inl h
    · exact .inr (List.mem_cons_of_mem _ h)

theorem mem_of_find? {name : String} {value : Expr} {bindings : Bindings}
    (h : bindings.find? name = some value) : (name, value) ∈ bindings := by
  obtain ⟨before, after, heq, -⟩ := List.lookup_eq_some_iff.mp h
  simp [heq]

end Bindings

namespace Store

-- The values of the names that have the trait have the traits, and the scopes that they capture
-- have been made.
structure Sound (t : Traits) (store : Store) : Prop extends store.Rooted where
  values : ∀ id frame, store.frame? id = some frame → ∀ binding ∈ frame.bindings,
    t.name binding.1 → t.Value store.next binding.2

variable {t : Traits} {store : Store}

theorem Sound.lookup? (h : store.Sound t) {scope : FrameId} {name : String} {value : Expr}
    (hname : t.name name) (hlookup : store.lookup? scope name = some value) :
    t.Value store.next value := by
  obtain ⟨id, -, hvalue⟩ := Option.bind_eq_some_iff.mp hlookup
  obtain ⟨frame, hframe, hvalue⟩ := Option.bind_eq_some_iff.mp hvalue
  exact h.values id frame hframe _ (Bindings.mem_of_find? hvalue) hname

theorem binding_of_define {scope : FrameId} {name : String} {value : Expr} {id : FrameId}
    {frame : Frame} (hframe : (store.define scope name value).frame? id = some frame)
    {binding : String × Expr} (hbinding : binding ∈ frame.bindings) :
    binding = (name, value) ∨
      ∃ old, store.frame? id = some old ∧ binding ∈ old.bindings := by
  rw [frame?_define] at hframe
  split at hframe
  · obtain ⟨old, hold, rfl⟩ := Option.map_eq_some_iff.mp hframe
    rcases Bindings.mem_put hbinding with hbinding | hbinding
    · exact .inl hbinding
    · exact .inr ⟨old, hold, hbinding⟩
  · exact .inr ⟨frame, hframe, hbinding⟩

theorem binding_of_alloc {params : List String} {args : List Expr} {outer : Option FrameId}
    {id : FrameId} {frame : Frame}
    (hframe : (store.alloc ⟨Bindings.ofPairs (params.zip args), outer⟩).frame? id = some frame)
    {binding : String × Expr} (hbinding : binding ∈ frame.bindings) :
    binding.2 ∈ args ∨ ∃ old, store.frame? id = some old ∧ binding ∈ old.bindings := by
  by_cases hnew : id = store.next
  · rw [hnew, frame?_alloc_next] at hframe
    cases hframe
    exact .inl (List.of_mem_zip (Bindings.mem_ofPairs hbinding)).2
  · rw [frame?_alloc_of_ne _ hnew] at hframe
    exact .inr ⟨frame, hframe, hbinding⟩

theorem Sound.define (h : store.Sound t) (scope : FrameId) (name : String) {value : Expr}
    (hvalue : t.Value store.next value) : (store.define scope name value).Sound t where
  toRooted := h.toRooted.define scope name value
  values id frame hframe binding hbinding hname := by
    rw [next_define]
    rcases binding_of_define hframe hbinding with rfl | ⟨old, hold, hbinding⟩
    · exact hvalue
    · exact h.values id old hold binding hbinding hname

theorem Sound.alloc (h : store.Sound t) {outer : FrameId} (houter : outer < store.next)
    (params : List String) {args : List Expr} (hargs : t.Values store.next args) :
    (store.alloc ⟨Bindings.ofPairs (params.zip args), some outer⟩).Sound t where
  toRooted := h.toRooted.alloc _ houter
  values id frame hframe binding hbinding hname := by
    rw [next_alloc]
    have hvalue : t.Value store.next binding.2 := by
      rcases binding_of_alloc hframe hbinding with harg | ⟨old, hold, hbinding⟩
      · exact hargs binding.2 harg
      · exact h.values id old hold binding hbinding hname
    exact hvalue.within_mono (Nat.le_succ _)

-- The scope that a closure is entered in, and its body there.
theorem Sound.enter (h : store.Sound t) {params : List String} {body : Expr} {captured : FrameId}
    {args : List Expr} (hclosure : t.Value store.next (.closure params body captured))
    (hargs : t.Values store.next args) :
    let entered := store.alloc ⟨Bindings.ofPairs (params.zip args), some captured⟩
    entered.Sound t ∧ store.next < entered.next ∧ t.Value entered.next body := by
  obtain ⟨-, hbody, hcaptured⟩ := Expr.has_closure_iff.mp hclosure
  have hnext : store.next < store.next + 1 := Nat.lt_succ_self _
  refine ⟨h.alloc hcaptured params hargs, ?_, ?_⟩
  · rwa [next_alloc]
  · rw [next_alloc]
    exact Expr.Has.within_mono hbody (Nat.le_of_lt hnext)

theorem binding_of_global {id : FrameId} {frame : Frame} (hframe : global.frame? id = some frame)
    {binding : String × Expr} (hbinding : binding ∈ frame.bindings) :
    id = 0 ∧ ((∃ p : Primitive, binding = (p.name, .builtin p)) ∨
      ∃ n, binding.2 = .number n ∧ (binding.1 = "PI" ∨ binding.1 = "E")) := by
  have hid : id = 0 := Nat.lt_one_iff.mp (lt_next_of_frame? hframe)
  rw [hid] at hframe
  cases hframe
  refine ⟨hid, ?_⟩
  rcases List.mem_append.mp hbinding with hbinding | hbinding
  · obtain ⟨p, -, rfl⟩ := List.mem_map.mp hbinding
    exact .inl ⟨p, rfl⟩
  · simp only [List.mem_cons, List.not_mem_nil, or_false] at hbinding
    rcases hbinding with rfl | rfl
    · exact .inr ⟨_, rfl, .inl rfl⟩
    · exact .inr ⟨_, rfl, .inr rfl⟩

-- The global scope starts with leaves that neither mention names nor capture scopes.
theorem has_of_global {t : Traits} (hnumber : ∀ n, t.number n) (hprimitive : ∀ p, t.primitive p)
    {id : FrameId} {frame : Frame} (hframe : global.frame? id = some frame)
    {binding : String × Expr} (hbinding : binding ∈ frame.bindings) : binding.2.Has t := by
  obtain ⟨-, ⟨p, rfl⟩ | ⟨n, hn, -⟩⟩ := binding_of_global hframe hbinding
  · exact .builtin p (hprimitive p)
  · rw [hn]
    exact .number n (hnumber n)

theorem sound_global (scope : FrameId → Prop) : global.Sound (.ofScopes scope) where
  toRooted := rooted_global
  values _ _ hframe _ hbinding _ :=
    has_of_global (fun _ => trivial) (fun _ => trivial) hframe hbinding

end Store

end Lisplet
