import Lisplet.Store.Basic

namespace Lisplet

namespace Bindings

theorem find?_cons (name bound : String) (value : Expr) (bindings : Bindings) :
    Bindings.find? name ((bound, value) :: bindings) =
      if name = bound then some value else bindings.find? name := by
  by_cases h : name = bound
  · simp [find?, h]
  · simp [find?, List.lookup_cons, h, beq_false_of_ne h]

theorem find?_put (name other : String) (value : Expr) (bindings : Bindings) :
    (put name value bindings).find? other =
      if other = name then some value else bindings.find? other := by
  induction bindings with
  | nil => rw [put, find?_cons]
  | cons binding rest ih =>
    obtain ⟨bound, old⟩ := binding
    rw [put]
    split
    · next hbound =>
      rw [find?_cons, find?_cons, hbound]
      split <;> rfl
    · next hbound =>
      rw [find?_cons, find?_cons, ih]
      split
      · next hother => rw [if_neg (hother ▸ hbound)]
      · rfl

end Bindings

namespace Store

theorem lt_next_of_frame? {store : Store} {id : FrameId} {frame : Frame}
    (h : store.frame? id = some frame) : id < store.next := by
  simp only [frame?, Array.getElem?_eq_some_iff] at h
  exact h.choose

theorem exists_frame?_of_lt {store : Store} {id : FrameId} (h : id < store.next) :
    ∃ frame, store.frame? id = some frame := ⟨store.frames[id], Array.getElem?_eq_getElem h⟩

@[simp] theorem next_alloc (store : Store) (frame : Frame) :
    (store.alloc frame).next = store.next + 1 := by
  simp [next, alloc]

@[simp] theorem next_define (store : Store) (id : FrameId) (name : String) (value : Expr) :
    (store.define id name value).next = store.next := by
  simp [next, define]

@[simp] theorem frame?_alloc_next (store : Store) (frame : Frame) :
    (store.alloc frame).frame? store.next = some frame := by
  simp [frame?, alloc, next]

theorem frame?_alloc_of_ne {store : Store} {id : FrameId} (frame : Frame) (h : id ≠ store.next) :
    (store.alloc frame).frame? id = store.frame? id := by
  simp only [next] at h
  simp [frame?, alloc, Array.getElem?_push, h]

theorem frame?_define (store : Store) (scope id : FrameId) (name : String) (value : Expr) :
    (store.define scope name value).frame? id =
      if id = scope then (store.frame? id).map fun frame =>
        { frame with bindings := frame.bindings.put name value }
      else store.frame? id := by
  simp only [frame?, define, Array.getElem?_modify]
  split <;> simp_all [eq_comm]

-- A definition leaves every scope where it lies.
theorem outer_frame?_define (store : Store) (scope id : FrameId) (name : String) (value : Expr) :
    ((store.define scope name value).frame? id).map Frame.outer =
      (store.frame? id).map Frame.outer := by
  rw [frame?_define]
  split
  · simp [Function.comp_def]
  · rfl

theorem exists_frame?_define {store : Store} {id : FrameId} {frame : Frame}
    (h : store.frame? id = some frame) (scope : FrameId) (name : String) (value : Expr) :
    ∃ same, (store.define scope name value).frame? id = some same ∧ same.outer = frame.outer := by
  have hlink := outer_frame?_define store scope id name value
  rw [h] at hlink
  exact Option.map_eq_some_iff.mp hlink

theorem exists_frame?_of_define {store : Store} {scope id : FrameId} {name : String} {value : Expr}
    {frame : Frame} (h : (store.define scope name value).frame? id = some frame) :
    ∃ old, store.frame? id = some old ∧ old.outer = frame.outer := by
  have hlink := outer_frame?_define store scope id name value
  rw [h] at hlink
  exact Option.map_eq_some_iff.mp hlink.symm

-- A scope that is entered is the one that comes next.
theorem exists_alloc_of_enter? {store after : Store} {params : List String} {args : List Expr}
    {outer : Option FrameId} {id : FrameId}
    (h : store.enter? params args outer = some (id, after)) :
    params.length = args.length ∧ id = store.next ∧
      after = store.alloc ⟨Bindings.ofPairs (params.zip args), outer⟩ := by
  unfold enter? at h
  split at h
  · next hlength =>
    cases h
    exact ⟨hlength, rfl, rfl⟩
  · cases h

-- The scope that is found binds the name.
theorem exists_binding_of_find? {store : Store} {id found : FrameId} {name : String}
    (h : store.find? id name = some found) :
    ∃ frame value, store.frame? found = some frame ∧ frame.bindings.find? name = some value := by
  fun_induction Store.find? store id name with
  | case1 id hframe => cases h
  | case2 id frame hframe hbound =>
    cases h
    obtain ⟨value, hvalue⟩ := Option.isSome_iff_exists.mp hbound
    exact ⟨frame, value, hframe, hvalue⟩
  | case3 id frame hframe hbound houter => cases h
  | case4 id frame hframe hbound outer houter hlt ih => exact ih h
  | case5 id frame hframe hbound outer houter hlt => cases h

end Store

end Lisplet
