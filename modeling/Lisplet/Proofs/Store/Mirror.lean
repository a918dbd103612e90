import Lisplet.Proofs.Expr.Rename
import Lisplet.Proofs.Store.Frame
import Mathlib.Order.Monotone.Basic

namespace Lisplet

namespace Bindings

def rename (f : FrameId → FrameId) (bindings : Bindings) : Bindings :=
  bindings.map fun (name, value) => (name, value.rename f)

theorem find?_rename (f : FrameId → FrameId) (name : String) (bindings : Bindings) :
    (bindings.rename f).find? name = (bindings.find? name).map (Expr.rename f) := by
  induction bindings with
  | nil => rfl
  | cons binding rest ih =>
    obtain ⟨bound, value⟩ := binding
    rw [rename, List.map_cons, find?_cons, find?_cons, apply_ite (Option.map (Expr.rename f))]
    exact congrArg _ ih

theorem put_rename (f : FrameId → FrameId) (name : String) (value : Expr) (bindings : Bindings) :
    (put name value bindings).rename f = put name (value.rename f) (bindings.rename f) := by
  induction bindings with
  | nil => rfl
  | cons binding rest ih =>
    obtain ⟨bound, old⟩ := binding
    by_cases hbound : bound = name
    · simp [put, rename, hbound]
    · simpa [put, rename, hbound] using ih

-- Parameters get the renamed arguments.
theorem ofPairs_zip_rename (f : FrameId → FrameId) (params : List String) (args : List Expr) :
    ofPairs (params.zip (args.map (Expr.rename f))) = (ofPairs (params.zip args)).rename f := by
  suffices hfold : ∀ (pairs : List (String × Expr)) (bindings : Bindings),
      (pairs.map fun (name, value) => (name, value.rename f)).foldl
          (fun bindings pair => put pair.1 pair.2 bindings) (bindings.rename f) =
        Bindings.rename f
          (pairs.foldl (fun bindings pair => put pair.1 pair.2 bindings) bindings) by
    rw [List.zip_map_right]
    exact hfold (params.zip args) []
  intro pairs
  induction pairs with
  | nil => exact fun _ => rfl
  | cons pair pairs ih =>
    intro bindings
    rw [List.map_cons, List.foldl_cons, List.foldl_cons, ← put_rename, ih]

end Bindings

-- To the names that count the other frame binds the same, in other scopes.
structure Frame.Mirrors (f : FrameId → FrameId) (names : String → Prop) (frame image : Frame) :
    Prop where
  outer : image.outer = frame.outer.map f
  find? : ∀ name, names name →
    image.bindings.find? name = (frame.bindings.find? name).map (Expr.rename f)

namespace Store

-- Each frame has its image in the other store, which may hold frames of its own. New frames take
-- corresponding places.
structure Mirrors (f : FrameId → FrameId) (names : String → Prop) (store image : Store) :
    Prop where
  mono : StrictMono f
  next : ∀ count, f (store.next + count) = image.next + count
  frame : ∀ id frame, store.frame? id = some frame →
    ∃ other, image.frame? (f id) = some other ∧ frame.Mirrors f names other

variable {f : FrameId → FrameId} {names : String → Prop} {store image : Store}

theorem frame?_eq_none_of_le {store : Store} {id : FrameId} (h : store.next ≤ id) :
    store.frame? id = none := by
  rw [frame?, Array.getElem?_eq_none h]

theorem le_next_of_frame?_eq_none {store : Store} {id : FrameId} (h : store.frame? id = none) :
    store.next ≤ id := by
  by_contra hlt
  obtain ⟨frame, hframe⟩ := exists_frame?_of_lt (Nat.lt_of_not_le hlt)
  rw [h] at hframe
  cases hframe

theorem Mirrors.frame?_eq_none (h : store.Mirrors f names image) {id : FrameId}
    (hid : store.frame? id = none) : image.frame? (f id) = none := by
  obtain ⟨count, rfl⟩ := Nat.exists_eq_add_of_le (le_next_of_frame?_eq_none hid)
  rw [h.next]
  exact frame?_eq_none_of_le (Nat.le_add_right _ _)

theorem Mirrors.find? (h : store.Mirrors f names image) (scope : FrameId) {name : String}
    (hname : names name) : image.find? (f scope) name = (store.find? scope name).map f := by
  fun_induction Store.find? store scope name with
  | case1 scope hframe =>
    rw [Store.find?, h.frame?_eq_none hframe]
    rfl
  | case2 scope frame hframe hbound =>
    obtain ⟨other, hother, hmirrors⟩ := h.frame scope frame hframe
    simp [Store.find?, hother, hmirrors.find? name hname, hbound]
  | case3 scope frame hframe hbound houter =>
    obtain ⟨other, hother, hmirrors⟩ := h.frame scope frame hframe
    simp [Store.find?, hother, hmirrors.find? name hname, hmirrors.outer, hbound, houter]
  | case4 scope frame hframe hbound outer houter hlt ih =>
    obtain ⟨other, hother, hmirrors⟩ := h.frame scope frame hframe
    rw [Store.find?]
    simp [hother, hmirrors.find? name hname, hmirrors.outer, hbound, houter, h.mono hlt, ih]
  | case5 scope frame hframe hbound outer houter hlt =>
    obtain ⟨other, hother, hmirrors⟩ := h.frame scope frame hframe
    have hlt' : ¬f outer < f scope := fun hf => hlt (h.mono.lt_iff_lt.mp hf)
    rw [Store.find?]
    simp [hother, hmirrors.find? name hname, hmirrors.outer, hbound, houter, hlt']

theorem Mirrors.lookup? (h : store.Mirrors f names image) (scope : FrameId) {name : String}
    (hname : names name) :
    image.lookup? (f scope) name = (store.lookup? scope name).map (Expr.rename f) := by
  rw [Store.lookup?, Store.lookup?, h.find? scope hname]
  cases hfound : store.find? scope name with
  | none => rfl
  | some id =>
    cases hframe : store.frame? id with
    | none => simp [h.frame?_eq_none hframe, hframe]
    | some frame =>
      obtain ⟨other, hother, hmirrors⟩ := h.frame id frame hframe
      simp [hother, hframe, hmirrors.find? name hname]

theorem Mirrors.define (h : store.Mirrors f names image) (scope : FrameId) (name : String)
    (value : Expr) :
    (store.define scope name value).Mirrors f names
      (image.define (f scope) name (value.rename f)) where
  mono := h.mono
  next count := by rw [next_define, next_define, h.next]
  frame id frame hframe := by
    rw [frame?_define] at hframe
    rw [frame?_define]
    by_cases hid : id = scope
    · subst hid
      rw [if_pos rfl] at hframe
      obtain ⟨old, hold, rfl⟩ := Option.map_eq_some_iff.mp hframe
      obtain ⟨other, hother, hmirrors⟩ := h.frame id old hold
      rw [if_pos rfl, hother]
      refine ⟨_, rfl, hmirrors.outer, fun asked hasked => ?_⟩
      rw [Bindings.find?_put, Bindings.find?_put, hmirrors.find? asked hasked]
      split <;> rfl
    · rw [if_neg hid] at hframe
      rw [if_neg (h.mono.injective.ne hid)]
      exact h.frame id frame hframe

theorem Mirrors.alloc (h : store.Mirrors f names image) {added other : Frame}
    (hadded : added.Mirrors f names other) :
    (store.alloc added).Mirrors f names (image.alloc other) where
  mono := h.mono
  next count := by
    rw [next_alloc, next_alloc, Nat.add_assoc, h.next, Nat.add_assoc]
  frame id frame hframe := by
    have hnext : f store.next = image.next := h.next 0
    by_cases hid : id = store.next
    · rw [hid, frame?_alloc_next] at hframe
      cases hframe
      rw [hid, hnext, frame?_alloc_next]
      exact ⟨other, rfl, hadded⟩
    · rw [frame?_alloc_of_ne _ hid] at hframe
      rw [frame?_alloc_of_ne _ (hnext ▸ h.mono.injective.ne hid)]
      exact h.frame id frame hframe

theorem Mirrors.enter? (h : store.Mirrors f names image) (params : List String)
    (args : List Expr) (outer : FrameId) :
    image.enter? params (args.map (Expr.rename f)) (some (f outer)) =
      (store.enter? params args (some outer)).map fun entered => (f entered.1, image.alloc
        ⟨Bindings.ofPairs (params.zip (args.map (Expr.rename f))), some (f outer)⟩) := by
  rw [Store.enter?, Store.enter?, List.length_map]
  split
  · exact congrArg (fun id => some (id, _)) (h.next 0).symm
  · rfl

-- The scope of a call and that of its counterpart.
theorem Mirrors.enter (h : store.Mirrors f names image) (params : List String) (args : List Expr)
    (outer : FrameId) :
    (store.alloc ⟨Bindings.ofPairs (params.zip args), some outer⟩).Mirrors f names
      (image.alloc
        ⟨Bindings.ofPairs (params.zip (args.map (Expr.rename f))), some (f outer)⟩) := by
  refine h.alloc ⟨rfl, fun name _ => ?_⟩
  rw [Bindings.ofPairs_zip_rename, Bindings.find?_rename]

end Store

end Lisplet
