import Lisplet.Expr.Basic

namespace Lisplet

-- The part is the whole, or lies in one of its items. Closures are not looked into.
inductive Expr.OccursIn (part : Expr) : Expr → Prop
  | whole : OccursIn part part
  | item (items : List Expr) (item : Expr) (hmem : item ∈ items) (h : OccursIn part item) :
      OccursIn part (.list items)

theorem Expr.OccursIn.trans {part middle whole : Expr} (h : part.OccursIn middle)
    (hmiddle : middle.OccursIn whole) : part.OccursIn whole := by
  induction hmiddle with
  | whole => exact h
  | item items item hmem _ ih => exact .item items item hmem ih

@[simp] theorem Expr.occursIn_list {part : Expr} {items : List Expr} :
    part.OccursIn (.list items) ↔ part = .list items ∨ ∃ item ∈ items, part.OccursIn item := by
  constructor
  · intro h
    cases h with
    | whole => exact .inl rfl
    | item items item hmem hitem => exact .inr ⟨item, hmem, hitem⟩
  · rintro (rfl | ⟨item, hmem, hitem⟩)
    · exact .whole
    · exact .item items item hmem hitem

@[simp] theorem Expr.occursIn_atom {part atom : Expr} (h : ∀ items, atom ≠ .list items) :
    part.OccursIn atom ↔ part = atom := by
  constructor
  · intro hpart
    cases hpart with
    | whole => rfl
    | item items item hmem hitem => exact absurd rfl (h items)
  · rintro rfl
    exact .whole

theorem Expr.OccursIn.of_mem {item whole : Expr} {items : List Expr} (hmem : item ∈ items)
    (h : (Expr.list items).OccursIn whole) : item.OccursIn whole :=
  (OccursIn.item items item hmem .whole).trans h

end Lisplet
