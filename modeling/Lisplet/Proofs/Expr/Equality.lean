import Lisplet.Expr.Object
import Lisplet.Proofs.Binary64.Order
import Lisplet.Proofs.Expr.Traits
import Lisplet.Proofs.Primitive.Arithmetic

namespace Lisplet

-- Whether a double is this integer, without any rounding.
def Binary64.isInt (n : Int) : Binary64 → Bool
  | .nan => false
  | .signed negative rank => rank.val < infinityRank && signedUnits negative rank == n * unitScale

namespace Number

variable {a b c : Number}

theorem eq_of_widen? {x y : Binary64} (ha : a.widen? = some x) (hb : b.widen? = some y) :
    a.eq b = x.eq y := by
  rw [eq, ha, hb]

theorem eq_of_widen?_eq_none (ha : a.widen? = none) : a.eq b = decide (a = b) := by
  rw [eq, ha]

-- Either both numbers widen, or they are the same integer.
theorem eq_iff : a.eq b ↔
    (∃ x y, a.widen? = some x ∧ b.widen? = some y ∧ x.eq y) ∨ a.widen? = none ∧ a = b := by
  cases ha : a.widen? with
  | none => simp [eq, ha]
  | some x =>
    cases hb : b.widen? with
    | none =>
      have hne : a ≠ b := fun h => by
        rw [h, hb] at ha
        cases ha
      simp [eq, ha, hb, hne]
    | some y => simp [eq, ha, hb]

theorem eq_symm (h : a.eq b) : b.eq a := by
  rcases eq_iff.mp h with ⟨x, y, ha, hb, hxy⟩ | ⟨ha, rfl⟩
  · exact eq_iff.mpr (.inl ⟨y, x, hb, ha, Binary64.eq_comm x y ▸ hxy⟩)
  · exact h

theorem eq_comm (a b : Number) : a.eq b = b.eq a :=
  Bool.eq_iff_iff.mpr ⟨eq_symm, eq_symm⟩

theorem eq_trans (hab : a.eq b) (hbc : b.eq c) : a.eq c := by
  rcases eq_iff.mp hab with ⟨x, y, ha, hb, hxy⟩ | ⟨-, rfl⟩
  · rcases eq_iff.mp hbc with ⟨y', z, hb', hc, hyz⟩ | ⟨hb', -⟩
    · rw [hb] at hb'
      cases hb'
      exact eq_iff.mpr (.inl ⟨x, z, ha, hc, Binary64.eq_trans hxy hyz⟩)
    · rw [hb] at hb'
      cases hb'
  · exact hbc

theorem widen?_ne_nan {n : Int} {x : Binary64} (h : (int n).widen? = some x) : x ≠ .nan := by
  simp only [widen?, Binary64.ofInt?, Option.ite_none_right_eq_some, Option.some.injEq] at h
  rw [← h.2]
  exact Binary64.noConfusion

theorem eq_self_iff (a : Number) : a.eq a ↔ a ≠ .float .nan := by
  cases a with
  | float x =>
    have hx : (float x).widen? = some x := rfl
    rw [eq_of_widen? hx hx, Binary64.eq_self_iff, ne_eq, ne_eq, float.injEq]
  | int n =>
    refine iff_of_true ?_ Number.noConfusion
    cases hn : (int n).widen? with
    | none => exact eq_iff.mpr (.inr ⟨hn, rfl⟩)
    | some x =>
      rw [eq_of_widen? hn hn, Binary64.eq_self_iff]
      exact widen?_ne_nan hn

theorem hash_of_widen? {x : Binary64} (h : a.widen? = some x) : a.hash = x.hash := by
  rw [hash.eq_def, h]

theorem hash_eq_of_eq (h : a.eq b) : a.hash = b.hash := by
  rcases eq_iff.mp h with ⟨x, y, ha, hb, hxy⟩ | ⟨-, rfl⟩
  · rw [hash_of_widen? ha, hash_of_widen? hb, Binary64.hash_eq_of_eq hxy]
  · rfl

-- The values themselves are compared, without any rounding.
def exactEq : Number → Number → Bool
  | .int m, .int n => m == n
  | .int n, .float x => x.isInt n
  | .float x, .int n => x.isInt n
  | .float x, .float y => x.eq y

theorem isInt_of_tooLarge {n : Int} (hn : (int n).TooLarge) (x : Binary64) : x.isInt n = false := by
  cases x with
  | nan => rfl
  | signed s rank =>
    by_contra h
    rw [Bool.not_eq_false, Binary64.isInt, Bool.and_eq_true, decide_eq_true_eq, beq_iff_eq] at h
    have hunits : Binary64.units rank.val = n.natAbs * Binary64.unitScale := by
      rw [← Binary64.natAbs_signedUnits s, h.2, Int.natAbs_mul, Int.natAbs_natCast]
    have hlt := Binary64.units_lt_of_finite h.1
    rw [hunits, Nat.mul_lt_mul_right Binary64.unitScale_pos] at hlt
    exact Nat.not_lt.mpr hn hlt

theorem exactEq_comm (a b : Number) : a.exactEq b = b.exactEq a := by
  cases a <;> cases b
  · exact Bool.beq_comm
  · rfl
  · rfl
  · exact Binary64.eq_comm _ _

theorem eq_exactEq_of_tooLarge (h : a.TooLarge) : a.eq b = a.exactEq b := by
  rw [eq_of_widen?_eq_none (widen?_eq_none_iff.mpr h)]
  cases a with
  | float x => exact h.elim
  | int m =>
    cases b with
    | int n => exact Bool.eq_iff_iff.mpr (by simp [exactEq])
    | float x => simp [exactEq, isInt_of_tooLarge h]

-- Where one of two numbers does not widen, their values are compared exactly.
theorem eq_of_tooLarge_or (h : a.TooLarge ∨ b.TooLarge) : a.eq b = a.exactEq b := by
  rcases h with ha | hb
  · exact eq_exactEq_of_tooLarge ha
  · rw [eq_comm, exactEq_comm, eq_exactEq_of_tooLarge hb]

end Number

namespace Expr

-- Data without NaN. There are no procedures in it.
def NaNFree (e : Expr) : Prop :=
  e.Has ⟨fun _ => True, (· ≠ .float .nan), fun _ => False, fun _ => False⟩

end Expr

namespace Object

mutual

theorem same_iff (a b : Object) : a.same b ↔ a = b := by
  cases a <;> cases b <;> try simp [same]
  case list.list i as j bs => exact fun _ => sameItems_iff as bs
  case closure.closure i params body scope j params' body' scope' =>
    rw [same_iff body body']
    tauto

theorem sameItems_iff (as bs : List Object) : sameItems as bs ↔ as = bs := by
  match as, bs with
  | [], [] => simp [sameItems]
  | [], _ :: _ => simp [sameItems]
  | _ :: _, [] => simp [sameItems]
  | a :: as, b :: bs =>
    rw [sameItems, Bool.and_eq_true, same_iff a b, sameItems_iff as bs, List.cons.injEq]

end

-- One and the same item, or equal items.
theorem eqItems_iff (as bs : List Object) :
    eqItems as bs ↔ List.Forall₂ (fun a b => a = b ∨ a.eq b) as bs := by
  induction as generalizing bs with
  | nil => cases bs <;> simp [eqItems]
  | cons a as ih => cases bs <;> simp [eqItems, ih, same_iff]

theorem eqItems_self (items : List Object) : eqItems items items :=
  (eqItems_iff items items).mpr (List.forall₂_same.mpr fun _ _ => .inl rfl)

-- Only NaN differs from itself.
theorem eq_self_iff (a : Object) : a.eq a ↔ a.expr ≠ .number (.float .nan) := by
  cases a with
  | number id n => simp [eq, expr, Number.eq_self_iff]
  | list id items => simp [eq, expr, eqItems_self]
  | _ => simp [eq, expr, same_iff]

mutual

theorem eq_symm {a b : Object} (h : a.eq b) : b.eq a := by
  cases a <;> cases b <;> try cases h
  case symbol.symbol => exact beq_iff_eq.mpr (eq_of_beq h).symm
  case number.number => exact Number.eq_symm h
  case bool.bool => exact beq_iff_eq.mpr (eq_of_beq h).symm
  case str.str => exact beq_iff_eq.mpr (eq_of_beq h).symm
  case list.list => exact eqItems_symm h
  case builtin.builtin => exact (same_iff _ _).mpr ((same_iff _ _).mp h).symm
  case closure.closure => exact (same_iff _ _).mpr ((same_iff _ _).mp h).symm

theorem eqItems_symm {as bs : List Object} (h : eqItems as bs) : eqItems bs as := by
  match as, bs with
  | [], [] => rfl
  | a :: as, b :: bs =>
    rw [eqItems, Bool.and_eq_true, Bool.or_eq_true, same_iff] at *
    exact ⟨h.1.imp Eq.symm eq_symm, eqItems_symm h.2⟩

end

mutual

theorem eq_trans {a b c : Object} (hab : a.eq b) (hbc : b.eq c) : a.eq c := by
  cases a <;> cases b <;> try cases hab
  all_goals cases c <;> try cases hbc
  case symbol.symbol.symbol => exact beq_iff_eq.mpr ((eq_of_beq hab).trans (eq_of_beq hbc))
  case number.number.number => exact Number.eq_trans hab hbc
  case bool.bool.bool => exact beq_iff_eq.mpr ((eq_of_beq hab).trans (eq_of_beq hbc))
  case str.str.str => exact beq_iff_eq.mpr ((eq_of_beq hab).trans (eq_of_beq hbc))
  case list.list.list => exact eqItems_trans hab hbc
  case builtin.builtin.builtin =>
    exact (same_iff _ _).mpr (((same_iff _ _).mp hab).trans ((same_iff _ _).mp hbc))
  case closure.closure.closure =>
    exact (same_iff _ _).mpr (((same_iff _ _).mp hab).trans ((same_iff _ _).mp hbc))

theorem eqItems_trans {as bs cs : List Object} (hab : eqItems as bs) (hbc : eqItems bs cs) :
    eqItems as cs := by
  match as, bs, cs with
  | [], [], [] => rfl
  | a :: as, b :: bs, c :: cs =>
    rw [eqItems, Bool.and_eq_true, Bool.or_eq_true, same_iff] at *
    refine ⟨?_, eqItems_trans hab.2 hbc.2⟩
    rcases hab.1, hbc.1 with ⟨rfl | hab, rfl | hbc⟩
    · exact .inl rfl
    · exact .inr hbc
    · exact .inr hab
    · exact .inr (eq_trans hab hbc)

end

mutual

theorem hash_eq_of_eq {a b : Object} (h : a.eq b) : a.hash = b.hash := by
  cases a <;> cases b <;> try cases h
  case symbol.symbol => rw [hash, hash, eq_of_beq h]
  case number.number i m j n =>
    have hm := (Number.eq_self_iff m).mp (Number.eq_trans h (Number.eq_symm h))
    have hn := (Number.eq_self_iff n).mp (Number.eq_trans (Number.eq_symm h) h)
    rw [hash, hash, if_neg hm, if_neg hn, Number.hash_eq_of_eq h]
  case bool.bool => rw [hash, hash, eq_of_beq h]
  case str.str => rw [hash, hash, eq_of_beq h]
  case list.list => rw [hash, hash, hashItems_eq_of_eqItems h]
  case builtin.builtin => rw [(same_iff _ _).mp h]
  case closure.closure => rw [(same_iff _ _).mp h]

theorem hashItems_eq_of_eqItems {as bs : List Object} (h : eqItems as bs) :
    hashItems as = hashItems bs := by
  match as, bs with
  | [], [] => rfl
  | a :: as, b :: bs =>
    rw [eqItems, Bool.and_eq_true, Bool.or_eq_true, same_iff] at h
    have hitem : a.hash = b.hash := h.1.elim (congrArg hash) hash_eq_of_eq
    rw [hashItems, hashItems, hitem, hashItems_eq_of_eqItems h.2]

end

mutual

theorem expr_ofExpr (next : Nat) (e : Expr) : (ofExpr next e).1.expr = e := by
  cases e with
  | list items => rw [ofExpr, expr, exprs_ofExprs (next + 1) items]
  | closure params body scope => rw [ofExpr, expr, expr_ofExpr (next + 1) body]
  | _ => rfl

theorem exprs_ofExprs (next : Nat) (items : List Expr) : exprs (ofExprs next items).1 = items := by
  match items with
  | [] => rfl
  | item :: rest => rw [ofExprs, exprs, expr_ofExpr next item, exprs_ofExprs _ rest]

end

mutual

-- As many numbers are used up from wherever they are counted.
theorem ofExpr_snd (i j : Nat) (e : Expr) : (ofExpr i e).2 + j = (ofExpr j e).2 + i := by
  cases e with
  | list items =>
    have := ofExprs_snd (i + 1) (j + 1) items
    simp only [ofExpr]
    omega
  | closure params body scope =>
    have := ofExpr_snd (i + 1) (j + 1) body
    simp only [ofExpr]
    omega
  | _ =>
    simp only [ofExpr]
    omega

theorem ofExprs_snd (i j : Nat) (items : List Expr) :
    (ofExprs i items).2 + j = (ofExprs j items).2 + i := by
  match items with
  | [] => exact Nat.add_comm i j
  | item :: rest =>
    have hitem := ofExpr_snd i j item
    have hrest := ofExprs_snd (ofExpr i item).2 (ofExpr j item).2 rest
    simp only [ofExprs]
    omega

end

theorem eq_of_ofExpr_eq {i j : Nat} {e : Expr} (h : (ofExpr i e).1 = (ofExpr j e).1) : i = j := by
  cases e <;> simp_all [ofExpr]

mutual

-- Without NaN nothing but the expression counts.
theorem eq_of_expr_eq {a b : Object} (h : a.expr = b.expr) (hfree : a.expr.NaNFree) : a.eq b := by
  cases a <;> cases b <;> try cases h
  case symbol.symbol.refl => exact beq_self_eq_true _
  case number.number.refl i n j =>
    exact (Number.eq_self_iff n).mpr (by simpa [Expr.NaNFree, expr] using hfree)
  case bool.bool.refl => exact beq_self_eq_true _
  case str.str.refl => exact beq_self_eq_true _
  case list.list i as j bs =>
    have hitems : ∀ item ∈ exprs as, item.NaNFree := by simpa [Expr.NaNFree, expr] using hfree
    exact eqItems_of_exprs_eq (Expr.list.inj h) hitems
  case builtin.builtin.refl => simp [Expr.NaNFree, expr] at hfree
  case closure.closure => simp [Expr.NaNFree, expr] at hfree

theorem eqItems_of_exprs_eq {as bs : List Object} (h : exprs as = exprs bs)
    (hfree : ∀ e ∈ exprs as, e.NaNFree) : eqItems as bs := by
  match as, bs with
  | [], [] => rfl
  | a :: as, b :: bs =>
    rw [exprs, List.forall_mem_cons] at hfree
    obtain ⟨hitem, hrest⟩ := List.cons.inj h
    rw [eqItems, Bool.and_eq_true, Bool.or_eq_true]
    exact ⟨.inr (eq_of_expr_eq hitem hfree.1), eqItems_of_exprs_eq hrest hfree.2⟩

end

mutual

-- Objects that share no part can be equal without NaN only.
theorem naNFree_of_eq {i j : Nat} (hij : i ≠ j) {e : Expr}
    (h : (ofExpr i e).1.eq (ofExpr j e).1) : e.NaNFree := by
  cases e with
  | symbol name => simp [Expr.NaNFree]
  | number n => simpa [Expr.NaNFree] using (Number.eq_self_iff n).mp h
  | bool b => simp [Expr.NaNFree]
  | str text => simp [Expr.NaNFree]
  | list items => simpa [Expr.NaNFree] using naNFree_of_eqItems (i := i + 1) (by omega) h
  | builtin p => exact absurd (eq_of_ofExpr_eq ((same_iff _ _).mp h)) hij
  | closure params body scope => exact absurd (eq_of_ofExpr_eq ((same_iff _ _).mp h)) hij

theorem naNFree_of_eqItems {i j : Nat} (hij : i ≠ j) {items : List Expr}
    (h : eqItems (ofExprs i items).1 (ofExprs j items).1) : ∀ item ∈ items, item.NaNFree := by
  match items with
  | [] => simp
  | item :: rest =>
    have hnext : (ofExpr i item).2 ≠ (ofExpr j item).2 := by
      have := ofExpr_snd i j item
      omega
    rw [ofExprs, ofExprs, eqItems, Bool.and_eq_true, Bool.or_eq_true, same_iff] at h
    have hitem := h.1.resolve_left fun hsame => hij (eq_of_ofExpr_eq hsame)
    exact List.forall_mem_cons.mpr ⟨naNFree_of_eq hij hitem, naNFree_of_eqItems hnext h.2⟩

end

end Object

end Lisplet
