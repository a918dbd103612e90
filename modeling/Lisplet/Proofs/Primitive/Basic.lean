import Lisplet.Proofs.Eval.Run

namespace Lisplet

def Expr.number? : Expr → Option Number
  | .number n => some n
  | _ => none

namespace Number

-- The double that a number widens to.
def widened (n : Number) : Binary64 := n.widen?.getD .nan

theorem mapM_widen?_cases (ns : List Number) :
    (∀ n ∈ ns, n.widen? = some n.widened) ∧ ns.mapM widen? = some (ns.map widened) ∨
      (∃ n ∈ ns, n.widen? = none) ∧ ns.mapM widen? = none := by
  induction ns with
  | nil => exact .inl ⟨fun _ hn => (List.not_mem_nil hn).elim, rfl⟩
  | cons n ns ih =>
    rw [List.mapM_cons]
    cases hn : n.widen? with
    | none => exact .inr ⟨⟨n, List.mem_cons_self, hn⟩, rfl⟩
    | some x =>
      have hx : n.widened = x := by rw [widened, hn, Option.getD_some]
      rcases ih with ⟨hall, hmapM⟩ | ⟨⟨m, hm, hnone⟩, hmapM⟩
      · refine .inl ⟨List.forall_mem_cons.mpr ⟨hx ▸ hn, hall⟩, ?_⟩
        rw [hmapM, List.map_cons, hx]
        rfl
      · refine .inr ⟨⟨m, List.mem_cons_of_mem n hm, hnone⟩, ?_⟩
        rw [hmapM]
        rfl

theorem mapM_widen?_eq_none_iff {ns : List Number} :
    ns.mapM widen? = none ↔ ∃ n ∈ ns, n.widen? = none := by
  rcases mapM_widen?_cases ns with ⟨hall, hmapM⟩ | ⟨hexists, hmapM⟩
  · rw [hmapM]
    refine ⟨fun h => (Option.some_ne_none _ h).elim, fun ⟨n, hn, hnone⟩ => ?_⟩
    exact (Option.some_ne_none _ ((hall n hn).symm.trans hnone)).elim
  · exact iff_of_true hmapM hexists

theorem mapM_widen?_eq_some_iff {ns : List Number} {values : List Binary64} :
    ns.mapM widen? = some values ↔
      (∀ n ∈ ns, n.widen? = some n.widened) ∧ ns.map widened = values := by
  rcases mapM_widen?_cases ns with ⟨hall, hmapM⟩ | ⟨⟨n, hn, hnone⟩, hmapM⟩
  · rw [hmapM, Option.some_inj]
    exact ⟨fun h => ⟨hall, h⟩, fun h => h.2⟩
  · rw [hmapM]
    refine ⟨fun h => (Option.some_ne_none _ h.symm).elim, fun h => ?_⟩
    exact (Option.some_ne_none _ ((h.1 n hn).symm.trans hnone)).elim

theorem mapM_int?_ints (values : List Int) :
    (values.map Number.int).mapM Number.int? = some values :=
  calc (values.map Number.int).mapM Number.int?
    _ = values.mapM fun n => some n := List.mapM_map
    _ = some (values.map fun n => n) := List.mapM_pure
    _ = some values := by rw [List.map_id']

theorem mapM_int?_of_any_isFloat {ns : List Number} (h : ns.any isFloat) :
    ns.mapM int? = none := by
  induction ns with
  | nil => cases h
  | cons n ns ih =>
    rw [List.mapM_cons]
    cases n with
    | int n =>
      rw [ih h]
      rfl
    | float x => rfl

theorem exists_ints {ns : List Number} (h : ∀ x ∈ ns, ¬x.isFloat) :
    ∃ values : List Int, ns = values.map .int := by
  induction ns with
  | nil => exact ⟨[], rfl⟩
  | cons x ns ih =>
    obtain ⟨hx, hrest⟩ := List.forall_mem_cons.mp h
    obtain ⟨values, rfl⟩ := ih hrest
    cases x with
    | int n => exact ⟨n :: values, rfl⟩
    | float x => exact absurd rfl hx

end Number

namespace Primitive

-- What becomes of a call to a primitive in a program.
def call (p : Primitive) (args : List Expr) : Except Failure Expr :=
  (p.apply (.list args)).mapError .ofEvalError

theorem on_application_builtin (p : Primitive) (args : List Expr) (evaluate : Rule)
    (machine : Machine) :
    ((Eval.application (.builtin p) args).run evaluate).on machine = (call p args, machine) := by
  have happlication : Eval.application (.builtin p) args = Plan.ofResult (p.apply (.list args)) :=
    rfl
  rw [happlication, call]
  cases p.apply (.list args) <;> rfl

variable {p : Primitive}

def asNumber (p : Primitive) : Expr → Except EvalError Number
  | .number n => .ok n
  | e => .error (.notANumber p e)

theorem numbers_cons (p : Primitive) (item : Expr) (items : List Expr) :
    numbers p (.list (item :: items)) = (item :: items).mapM (asNumber p) := rfl

theorem mapM_asNumber_cases (p : Primitive) (items : List Expr) :
    (∃ ns, items = ns.map .number ∧ items.mapM (asNumber p) = .ok ns) ∨
      ∃ e, items.find? (·.number?.isNone) = some e ∧
        items.mapM (asNumber p) = .error (.notANumber p e) := by
  induction items with
  | nil => exact .inl ⟨[], rfl, rfl⟩
  | cons item items ih =>
    rw [List.mapM_cons]
    cases item with
    | number n =>
      rcases ih with ⟨ns, rfl, hmapM⟩ | ⟨e, hfind, hmapM⟩
      · exact .inl ⟨n :: ns, rfl, by rw [hmapM]; rfl⟩
      · exact .inr ⟨e, hfind, by rw [hmapM]; rfl⟩
    | _ => exact .inr ⟨_, rfl, rfl⟩

theorem numbers_map (p : Primitive) (n : Number) (ns : List Number) :
    numbers p (.list ((n :: ns).map .number)) = .ok (n :: ns) := by
  rw [List.map_cons, numbers_cons, ← List.map_cons]
  rcases mapM_asNumber_cases p ((n :: ns).map .number) with ⟨ns', hns, hmapM⟩ | ⟨e, hfind, -⟩
  · rw [hmapM, (List.map_inj_right fun _ _ => Expr.number.inj).mp hns]
  · obtain ⟨m, -, rfl⟩ := List.mem_map.mp (List.mem_of_find?_eq_some hfind)
    cases List.find?_some hfind

-- The first argument of another kind is the one that the error names.
theorem numbers_of_find? {args : List Expr} {e : Expr}
    (h : args.find? (·.number?.isNone) = some e) :
    numbers p (.list args) = .error (.notANumber p e) := by
  cases args with
  | nil => cases h
  | cons item items =>
    rw [numbers_cons]
    rcases mapM_asNumber_cases p (item :: items) with ⟨ns, hns, -⟩ | ⟨e', hfind, hmapM⟩
    · rw [hns] at h
      obtain ⟨m, -, rfl⟩ := List.mem_map.mp (List.mem_of_find?_eq_some h)
      cases List.find?_some h
    · rw [h] at hfind
      cases hfind
      exact hmapM

-- Arguments are missing, or not all of them are numbers, or there is at least one number.
theorem args_cases (args : List Expr) :
    args = [] ∨ (∃ e, args.find? (·.number?.isNone) = some e) ∨
      ∃ (n : Number) (ns : List Number), args = (n :: ns).map .number := by
  rcases mapM_asNumber_cases .add args with ⟨_ | ⟨n, ns⟩, hns, -⟩ | ⟨e, hfind, -⟩
  · exact .inl hns
  · exact .inr (.inr ⟨n, ns, hns⟩)
  · exact .inr (.inl ⟨e, hfind⟩)

-- A single operand is what it is combined to as well.
theorem fold_ints {combine : Int → Int → Int} (h : combineExact? p = some combine)
    (head : Int) (tail : List Int) :
    fold p ((head :: tail).map .int) = .ok (.int (tail.foldl combine head)) := by
  have hexact : exactOperands? p ((head :: tail).map .int) = some (combine, head :: tail) := by
    rw [exactOperands?, h, Number.mapM_int?_ints]
  cases tail with
  | nil => rfl
  | cons next tail =>
    rw [List.map_cons, List.map_cons] at hexact ⊢
    rw [fold, hexact]
    intro n hn
    cases hn

theorem fold_nil {combine : Int → Int → Int} (h : combineExact? p = some combine) :
    fold p [] = .error (.noArguments p) := by
  simp only [fold, exactOperands?, h]
  rfl

-- Operands are combined as integers if all of them are and the operation allows it.
theorem exactOperands?_cases (p : Primitive) (ns : List Number) :
    (∃ (exact : Int → Int → Int) (values : List Int),
        combineExact? p = some exact ∧ ns = values.map .int) ∨
      ((combineExact? p).isSome && !ns.any Number.isFloat) = false ∧
        exactOperands? p ns = none := by
  cases hexact : combineExact? p with
  | none => exact .inr ⟨rfl, by rw [exactOperands?, hexact]⟩
  | some exact =>
    cases hany : ns.any Number.isFloat with
    | false =>
      have hfree : ∀ x ∈ ns, ¬x.isFloat := by simpa using hany
      obtain ⟨values, rfl⟩ := Number.exists_ints hfree
      exact .inl ⟨exact, values, rfl, rfl⟩
    | true =>
      exact .inr ⟨rfl, by rw [exactOperands?, Number.mapM_int?_of_any_isFloat hany, hexact]⟩

-- What operands are combined to as doubles.
def foldWidened (p : Primitive) (ns : List Number) : Except EvalError Number := do
  match ← widenAll p ns with
  | head :: tail => return .float (← tail.foldlM (combine p) head)
  | [] => .error (.noArguments p)

theorem fold_of_exactOperands?_eq_none {n next : Number} {ns : List Number}
    (h : exactOperands? p (n :: next :: ns) = none) :
    fold p (n :: next :: ns) = foldWidened p (n :: next :: ns) := by
  rewrite [fold, h]
  · rfl
  · intro m hm
    cases hm

end Primitive

end Lisplet
