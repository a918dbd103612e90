import Lisplet.Proofs.Store.Frame
import Mathlib.Data.List.Pairwise

namespace Lisplet.Store

-- The scopes from one outwards, along the links as they stand.
inductive Chain (store : Store) : FrameId → List FrameId → Prop
  | outermost (id : FrameId) (frame : Frame) (h : store.frame? id = some frame)
      (houter : frame.outer = none) : Chain store id [id]
  | inner (id outer : FrameId) (frame : Frame) (rest : List FrameId)
      (h : store.frame? id = some frame) (houter : frame.outer = some outer)
      (hrest : Chain store outer rest) : Chain store id (id :: rest)

-- The value of a name in one scope, without those around it.
def value? (store : Store) (name : String) (id : FrameId) : Option Expr :=
  (store.frame? id).bind fun frame => frame.bindings.find? name

-- From the scope the links lead through ever older frames to the global scope, and looking up
-- goes this way.
def Grounded (store : Store) (id : FrameId) : Prop :=
  ∃ chain, store.Chain id chain ∧ chain.Pairwise (· > ·) ∧ chain.getLast? = some 0 ∧
    store.scopes id = chain ∧
    ∀ name, store.find? id name = chain.find? (fun scope => (store.value? name scope).isSome) ∧
      store.lookup? id name = chain.findSome? (store.value? name)

-- No scope lies in one that was made after it.
def Forest (store : Store) : Prop :=
  ∀ id frame outer, store.frame? id = some frame → frame.outer = some outer → outer < id

-- The global scope lies in no other, and every other scope in one that was made before it.
structure Rooted (store : Store) : Prop where
  root : ∃ frame, store.frame? 0 = some frame ∧ frame.outer = none
  inner : ∀ id frame, store.frame? id = some frame → id ≠ 0 → ∃ outer < id, frame.outer = some outer

theorem Chain.head_eq {store : Store} {id : FrameId} {chain : List FrameId}
    (h : store.Chain id chain) : ∃ rest, chain = id :: rest := by
  cases h with
  | outermost => exact ⟨[], rfl⟩
  | inner _ _ _ rest => exact ⟨rest, rfl⟩

namespace Forest

variable {store : Store} {id : FrameId} {chain : List FrameId}

theorem exists_chain (h : store.Forest) (id : FrameId) (hid : id < store.next) :
    ∃ chain, store.Chain id chain := by
  induction id using Nat.strongRecOn with
  | ind id ih =>
    obtain ⟨frame, hframe⟩ := exists_frame?_of_lt hid
    cases houter : frame.outer with
    | none => exact ⟨[id], .outermost id frame hframe houter⟩
    | some outer =>
      have hlt := h id frame outer hframe houter
      obtain ⟨rest, hrest⟩ := ih outer hlt (Nat.lt_trans hlt hid)
      exact ⟨id :: rest, .inner id outer frame rest hframe houter hrest⟩

theorem chain_pairwise (h : store.Forest) (hchain : store.Chain id chain) :
    chain.Pairwise (· > ·) := by
  induction hchain with
  | outermost => exact List.pairwise_singleton _ _
  | inner id outer frame rest hframe houter hrest ih =>
    obtain ⟨tail, rfl⟩ := hrest.head_eq
    have hlt := h id frame outer hframe houter
    refine List.pairwise_cons.mpr ⟨fun older holder => ?_, ih⟩
    rcases List.mem_cons.mp holder with rfl | holder
    · exact hlt
    · exact Nat.lt_trans (List.rel_of_pairwise_cons ih holder) hlt

theorem scopes_eq (h : store.Forest) (hchain : store.Chain id chain) :
    store.scopes id = chain := by
  induction hchain with
  | outermost id frame hframe houter =>
    rw [scopes]
    simp [hframe, houter]
  | inner id outer frame rest hframe houter hrest ih =>
    rw [scopes]
    simp [hframe, houter, h id frame outer hframe houter, ih]

theorem find?_eq (h : store.Forest) (hchain : store.Chain id chain) (name : String) :
    store.find? id name = chain.find? fun scope => (store.value? name scope).isSome := by
  induction hchain with
  | outermost id frame hframe houter =>
    have hvalue : store.value? name id = frame.bindings.find? name := by simp [value?, hframe]
    rw [find?, List.find?_cons, hvalue]
    cases hfound : frame.bindings.find? name <;> simp [hframe, houter, hfound]
  | inner id outer frame rest hframe houter hrest ih =>
    have hvalue : store.value? name id = frame.bindings.find? name := by simp [value?, hframe]
    have hlt := h id frame outer hframe houter
    rw [find?, List.find?_cons, hvalue]
    cases hfound : frame.bindings.find? name <;> simp [hframe, houter, hfound, hlt, ih]

theorem lookup?_eq (h : store.Forest) (hchain : store.Chain id chain) (name : String) :
    store.lookup? id name = chain.findSome? (store.value? name) := by
  have hbind : ∀ scopes : List FrameId,
      (scopes.find? fun scope => (store.value? name scope).isSome).bind (store.value? name) =
        scopes.findSome? (store.value? name) := by
    intro scopes
    induction scopes with
    | nil => rfl
    | cons scope scopes ih =>
      rw [List.find?_cons, List.findSome?_cons]
      cases hvalue : store.value? name scope <;> simp [hvalue, ih]
  rw [← hbind, ← h.find?_eq hchain]
  rfl

theorem define (h : store.Forest) (scope : FrameId) (name : String) (value : Expr) :
    (store.define scope name value).Forest := by
  intro id frame outer hframe houter
  obtain ⟨old, hold, hsame⟩ := exists_frame?_of_define hframe
  exact h id old outer hold (hsame.trans houter)

theorem alloc (h : store.Forest) (bindings : Bindings) {outer : Option FrameId}
    (houter : ∀ id ∈ outer, id < store.next) : (store.alloc ⟨bindings, outer⟩).Forest := by
  intro id frame older hframe holder
  by_cases hnew : id = store.next
  · rw [hnew, frame?_alloc_next] at hframe
    cases hframe
    exact hnew ▸ houter older holder
  · rw [frame?_alloc_of_ne _ hnew] at hframe
    exact h id frame older hframe holder

end Forest

namespace Rooted

variable {store : Store}

theorem forest (h : store.Rooted) : store.Forest := by
  intro id frame outer hframe houter
  obtain ⟨root, hroot, hnone⟩ := h.root
  by_cases hid : id = 0
  · rw [hid, hroot] at hframe
    cases hframe
    rw [hnone] at houter
    cases houter
  · obtain ⟨older, hlt, hsome⟩ := h.inner id frame hframe hid
    rw [hsome] at houter
    cases houter
    exact hlt

theorem getLast?_of_chain (h : store.Rooted) {id : FrameId} {chain : List FrameId}
    (hchain : store.Chain id chain) : chain.getLast? = some 0 := by
  induction hchain with
  | outermost id frame hframe houter =>
    have hid : id = 0 := by
      by_contra hne
      obtain ⟨outer, -, hsome⟩ := h.inner id frame hframe hne
      rw [houter] at hsome
      cases hsome
    rw [hid]
    rfl
  | inner id outer frame rest hframe houter hrest ih =>
    obtain ⟨tail, rfl⟩ := hrest.head_eq
    exact ih

theorem grounded (h : store.Rooted) {id : FrameId} (hid : id < store.next) : store.Grounded id := by
  obtain ⟨chain, hchain⟩ := h.forest.exists_chain id hid
  exact ⟨chain, hchain, h.forest.chain_pairwise hchain, h.getLast?_of_chain hchain,
    h.forest.scopes_eq hchain, fun name =>
      ⟨h.forest.find?_eq hchain name, h.forest.lookup?_eq hchain name⟩⟩

theorem next_pos (h : store.Rooted) : 0 < store.next := by
  obtain ⟨root, hroot, -⟩ := h.root
  exact lt_next_of_frame? hroot

theorem define (h : store.Rooted) (scope : FrameId) (name : String) (value : Expr) :
    (store.define scope name value).Rooted where
  root := by
    obtain ⟨root, hroot, hnone⟩ := h.root
    obtain ⟨same, hsame, hlink⟩ := exists_frame?_define hroot scope name value
    exact ⟨same, hsame, hlink.trans hnone⟩
  inner id frame hframe hid := by
    obtain ⟨old, hold, hsame⟩ := exists_frame?_of_define hframe
    rw [← hsame]
    exact h.inner id old hold hid

theorem alloc (h : store.Rooted) (bindings : Bindings) {outer : FrameId}
    (houter : outer < store.next) : (store.alloc ⟨bindings, some outer⟩).Rooted where
  root := by
    obtain ⟨root, hroot, hnone⟩ := h.root
    exact ⟨root, by rw [frame?_alloc_of_ne _ (Nat.ne_of_lt h.next_pos), hroot], hnone⟩
  inner id frame hframe hid := by
    by_cases hnew : id = store.next
    · rw [hnew, frame?_alloc_next] at hframe
      cases hframe
      exact ⟨outer, hnew ▸ houter, rfl⟩
    · rw [frame?_alloc_of_ne _ hnew] at hframe
      exact h.inner id frame hframe hid

end Rooted

theorem rooted_global : global.Rooted where
  root := ⟨⟨globalBindings, none⟩, rfl, rfl⟩
  inner id frame hframe hid := by
    have hlt : id < 1 := lt_next_of_frame? hframe
    exact absurd (Nat.lt_one_iff.mp hlt) hid

end Lisplet.Store
