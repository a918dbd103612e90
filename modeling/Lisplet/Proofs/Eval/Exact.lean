import Lisplet.Proofs.Eval.Invariant
import Lisplet.Proofs.Primitive.Basic

namespace Lisplet

-- There is no double in it, in the bodies of closures neither.
def Expr.FloatFree (e : Expr) : Prop :=
  e.Has ⟨fun _ => True, fun n => ¬n.isFloat, fun _ => True, fun _ => True⟩

-- A form with whole numbers only that names neither the constants nor division and has no procedure
-- in it.
def Expr.IntegerForm (e : Expr) : Prop :=
  e.Has ⟨(· ∉ ["PI", "E", "/"]), fun n => ¬n.isFloat, fun _ => False, fun _ => False⟩

-- Only the constants of the global scope are doubles.
def Store.FloatFree (store : Store) : Prop :=
  ∀ id frame, store.frame? id = some frame → ∀ binding ∈ frame.bindings,
    binding.2.FloatFree ∨ id = 0 ∧ (binding.1 = "PI" ∨ binding.1 = "E")

-- What evaluation of such forms comes across. Closures are made on the way, and all primitives but
-- division are at hand.
def Traits.exact : Traits :=
  ⟨(· ∉ ["PI", "E", "/"]), fun n => ¬n.isFloat, (· ≠ .div), fun _ => True⟩

theorem Expr.Has.floatFree {e : Expr} {scope : FrameId → Prop}
    (h : e.Has { Traits.exact with scope := scope }) : e.FloatFree :=
  h.imp (fun _ _ => trivial) (fun _ hn => hn) (fun _ _ => trivial) fun _ _ => trivial

theorem Expr.IntegerForm.has {e : Expr} (h : e.IntegerForm) (size : Nat) :
    Traits.exact.Value size e :=
  h.imp (fun _ hname => hname) (fun _ hn => hn) (fun _ hp => hp.elim) fun _ hid => hid.elim

namespace Primitive

theorem arithmetic_ints {p : Primitive} {combine : Int → Int → Int}
    (h : combineExact? p = some combine) {numbers : List Number} {n : Number}
    (hnumbers : ∀ x ∈ numbers, ¬x.isFloat)
    (happly : arithmetic p (.list (numbers.map .number)) = .ok (.number n)) : ¬n.isFloat := by
  rcases arithmetic_spec happly with hsame | ⟨operands, result, hargs, hfold, hresult⟩
  · cases hsame
  · cases hresult
    have hoperands : numbers = operands :=
      (List.map_inj_right fun _ _ => Expr.number.inj).mp (Expr.list.inj hargs)
    subst hoperands
    obtain ⟨values, rfl⟩ := Number.exists_ints hnumbers
    cases values with
    | nil =>
      rw [List.map_nil, fold_nil h] at hfold
      cases hfold
    | cons head tail =>
      rw [fold_ints h] at hfold
      cases hfold
      exact Bool.false_ne_true

end Primitive

theorem Traits.closed_exact : Traits.exact.Closed := by
  intro p numbers n hp hnumbers happly
  have hargs : (Expr.list (numbers.map .number)).Has Traits.exact := by
    refine .list _ fun item hitem => ?_
    obtain ⟨x, hx, rfl⟩ := List.mem_map.mp hitem
    exact .number x (hnumbers x hx)
  cases p with
  | add | sub | mul => exact Primitive.arithmetic_ints rfl hnumbers happly
  | div => exact absurd rfl hp
  | gt | ge | lt | le => exact Expr.has_number_iff.mp (Primitive.chain_has happly)
  | eq => exact Expr.has_number_iff.mp (Primitive.equal_has happly)
  | first => exact Expr.has_number_iff.mp (Primitive.firstItem_has hargs happly)
  | rest => exact Expr.has_number_iff.mp (Primitive.restItems_has hargs happly)
  | arguments name => cases happly

namespace Store

theorem sound_exact_global : global.Sound .exact where
  toRooted := rooted_global
  values id frame hframe binding hbinding hname := by
    obtain ⟨-, ⟨p, rfl⟩ | ⟨n, -, hconstant | hconstant⟩⟩ := binding_of_global hframe hbinding
    · refine .builtin p fun hdiv => ?_
      rw [hdiv] at hname
      exact hname (by decide)
    · exact absurd (by rw [hconstant]; decide) hname
    · exact absurd (by rw [hconstant]; decide) hname

theorem floatFree_global : global.FloatFree := by
  intro id frame hframe binding hbinding
  obtain ⟨hid, ⟨p, rfl⟩ | ⟨n, -, hconstant⟩⟩ := binding_of_global hframe hbinding
  · exact .inl (.builtin p trivial)
  · exact .inr ⟨hid, hconstant⟩

theorem exact_keeps_floatFree : Traits.exact.Keeps FloatFree where
  define store scope name value h _ hvalue id frame hframe binding hbinding := by
    rcases binding_of_define hframe hbinding with rfl | ⟨old, hold, hbinding⟩
    · exact .inl (Expr.Has.floatFree hvalue)
    · exact h id old hold binding hbinding
  alloc store params args outer h _ hargs id frame hframe binding hbinding := by
    rcases binding_of_alloc hframe hbinding with harg | ⟨old, hold, hbinding⟩
    · exact .inl (Expr.Has.floatFree (hargs binding.2 harg))
    · exact h id old hold binding hbinding

end Store

-- Without the constants and division, whole numbers never lead to doubles: no value is or contains
-- one, and no scope ever binds a name to one.
theorem Session.integer_forms_stay_exact (room : Nat) (entries : List Entry)
    (h : ∀ entry ∈ entries, entry.scope = 0 ∧ entry.e.IntegerForm) :
    (∀ value, .ok value ∈ outcomes room entries Machine.start → value.FloatFree) ∧
      (∀ moment ∈ moments room entries Machine.start, moment.machine.store.FloatFree) ∧
      (final room entries Machine.start).store.FloatFree := by
  have hentries : ∀ entry ∈ entries, entry.scope < Machine.start.store.next ∧
      Traits.exact.Value Machine.start.store.next entry.e := fun entry hentry =>
    ⟨by rw [(h entry hentry).1]; decide, (h entry hentry).2.has _⟩
  obtain ⟨hthroughout, hvalues⟩ := keeps Traits.closed_exact Store.exact_keeps_floatFree room
    entries Machine.start Store.sound_exact_global hentries Store.floatFree_global
  exact ⟨fun value hvalue => (hvalues value hvalue).floatFree, hthroughout.moments,
    hthroughout.after⟩

theorem Session.integer_forms_stay_exact_after_errors :
    let double : Expr := .list [.symbol "lambda", .list [.symbol "x"],
      .list [.symbol "*", .symbol "x", .number (.int 2)]]
    let call (n : Int) : Expr := .list [.symbol "double", .number (.int n)]
    let template : Expr := .list [.symbol "double", .list [.symbol "unquote", call 21]]
    let entries : List Entry := [
      ⟨50, 0, .list [.symbol "def", .symbol "double", double]⟩,
      ⟨50, 0, .list [.symbol "+", call 1, .symbol "y"]⟩,
      ⟨2, 0, call 3⟩,
      ⟨50, 0, .list [.symbol "def", .symbol "y", .list [.symbol "quasiquote", template]]⟩]
    (∀ entry ∈ entries, entry.scope = 0 ∧ entry.e.IntegerForm) ∧
      (outcomes 9 entries Machine.start).map (·.toOption.map Expr.render) =
        [some "(lambda (x) (* x 2))", none, none, some "(double 42)"] ∧
      (∀ value, .ok value ∈ outcomes 9 entries Machine.start → value.FloatFree) ∧
      (∀ moment ∈ moments 9 entries Machine.start, moment.machine.store.FloatFree) ∧
      (final 9 entries Machine.start).store.FloatFree := by
  intro double call template entries
  have h : ∀ entry ∈ entries, entry.scope = 0 ∧ entry.e.IntegerForm := by
    simp [entries, template, call, double, Expr.IntegerForm, Number.isFloat]
  exact ⟨h, by decide +kernel, integer_forms_stay_exact 9 entries h⟩

end Lisplet
