import Lisplet.Proofs.Store.Frame

namespace Lisplet.Store

-- The frames that were there still are, and only those of some scopes may have changed.
structure KeepsOutside (scopes : FrameId → Prop) (before after : Store) : Prop where
  next_le : before.next ≤ after.next
  frame : ∀ id frame, before.frame? id = some frame → ¬scopes id → after.frame? id = some frame

theorem KeepsOutside.refl (scopes : FrameId → Prop) (store : Store) :
    store.KeepsOutside scopes store := ⟨Nat.le_refl _, fun _ _ h _ => h⟩

theorem KeepsOutside.trans {scopes : FrameId → Prop} {before middle after : Store}
    (h : before.KeepsOutside scopes middle) (h' : middle.KeepsOutside scopes after) :
    before.KeepsOutside scopes after where
  next_le := Nat.le_trans h.next_le h'.next_le
  frame id frame hframe hscope := h'.frame id frame (h.frame id frame hframe hscope) hscope

theorem KeepsOutside.mono {scopes wider : FrameId → Prop} {before after : Store}
    (h : before.KeepsOutside scopes after) (hwider : ∀ id, scopes id → wider id) :
    before.KeepsOutside wider after where
  next_le := h.next_le
  frame id frame hframe hscope := h.frame id frame hframe fun hid => hscope (hwider id hid)

-- What is done to a scope that is made on the way is done to no other.
theorem KeepsOutside.of_alloc {scopes : FrameId → Prop} {store after : Store} {frame : Frame}
    (h : (store.alloc frame).KeepsOutside (· = store.next) after) :
    store.KeepsOutside scopes after where
  next_le := by
    have hnext := h.next_le
    rw [next_alloc] at hnext
    exact Nat.le_of_succ_le hnext
  frame id old hold _ := by
    have hid : id ≠ store.next := Nat.ne_of_lt (lt_next_of_frame? hold)
    exact h.frame id old (by rw [frame?_alloc_of_ne frame hid, hold]) hid

-- A frame that only gained bindings and changed values, and these only for some names.
structure Rebinds (names : String → Prop) (before after : Frame) : Prop where
  outer : after.outer = before.outer
  bound : ∀ name, (before.bindings.find? name).isSome → (after.bindings.find? name).isSome
  other : ∀ name, ¬names name → after.bindings.find? name = before.bindings.find? name

-- What evaluation in a scope does to the frames it finds.
structure Effect (scope : FrameId) (names : String → Prop) (before after : Store) : Prop where
  others : before.KeepsOutside (· = scope) after
  own : ∀ frame, before.frame? scope = some frame →
    ∃ changed, after.frame? scope = some changed ∧ Rebinds names frame changed

variable {scope : FrameId} {names : String → Prop} {before middle after : Store}

theorem Rebinds.refl (names : String → Prop) (frame : Frame) : Rebinds names frame frame :=
  ⟨rfl, fun _ h => h, fun _ _ => rfl⟩

theorem Rebinds.trans {first second third : Frame} (h : Rebinds names first second)
    (h' : Rebinds names second third) : Rebinds names first third where
  outer := h'.outer.trans h.outer
  bound name hname := h'.bound name (h.bound name hname)
  other name hname := (h'.other name hname).trans (h.other name hname)

theorem Rebinds.put {name : String} (hname : names name) (value : Expr) (frame : Frame) :
    Rebinds names frame { frame with bindings := frame.bindings.put name value } where
  outer := rfl
  bound other hother := by
    rw [Bindings.find?_put]
    split
    · rfl
    · exact hother
  other other hother := by
    rw [Bindings.find?_put, if_neg]
    rintro rfl
    exact hother hname

theorem Effect.refl (scope : FrameId) (names : String → Prop) (store : Store) :
    store.Effect scope names store :=
  ⟨.refl _ store, fun frame h => ⟨frame, h, .refl names frame⟩⟩

theorem Effect.trans (h : before.Effect scope names middle) (h' : middle.Effect scope names after) :
    before.Effect scope names after where
  others := h.others.trans h'.others
  own frame hframe := by
    obtain ⟨changed, hchanged, hrebinds⟩ := h.own frame hframe
    obtain ⟨final, hfinal, hrebinds'⟩ := h'.own changed hchanged
    exact ⟨final, hfinal, hrebinds.trans hrebinds'⟩

theorem Effect.mono {wider : String → Prop} (h : before.Effect scope names after)
    (hwider : ∀ name, names name → wider name) : before.Effect scope wider after where
  others := h.others
  own frame hframe := by
    obtain ⟨changed, hchanged, hrebinds⟩ := h.own frame hframe
    exact ⟨changed, hchanged, hrebinds.outer, hrebinds.bound, fun name hname =>
      hrebinds.other name fun h => hname (hwider name h)⟩

theorem Effect.define {name : String} (hname : names name) (value : Expr) (store : Store) :
    store.Effect scope names (store.define scope name value) where
  others.next_le := Nat.le_of_eq (next_define store scope name value).symm
  others.frame id frame hframe hid := by rw [frame?_define, if_neg hid, hframe]
  own frame hframe := by
    refine ⟨_, ?_, .put hname value frame⟩
    rw [frame?_define, if_pos rfl, hframe]
    rfl

-- A call leaves every frame alone that was there before it, even that of its caller.
theorem Effect.of_alloc {inside : String → Prop} {store : Store} {frame : Frame}
    (h : (store.alloc frame).Effect store.next inside after) : store.Effect scope names after where
  others := .of_alloc h.others
  own old hold := by
    have hkeeps : store.KeepsOutside (fun _ => False) after := .of_alloc h.others
    exact ⟨old, hkeeps.frame scope old hold id, .refl names old⟩

end Lisplet.Store
