import Lisplet.Proofs.Binary64.Order
import Lisplet.Proofs.Primitive.Basic
import Mathlib.Algebra.BigOperators.Group.List.Basic
import Mathlib.Algebra.Order.Group.Int

namespace Lisplet

namespace Binary64

theorem div?_eq_none_iff {x y : Binary64} : div? x y = none ↔ y.isZero := by
  cases y with
  | nan => cases x <;> simp [div?, isZero]
  | signed t b =>
    cases x with
    | nan => simp [div?, isZero]
    | signed s a =>
      by_cases hb : b.val = 0
      · simp [div?, isZero, hb]
      · simp only [div?, isZero, beq_iff_eq, hb, iff_false]
        grind

-- Divisors are divided by one after the other, whatever the quotients are.
theorem foldlM_div?_eq_none_iff {x : Binary64} {divisors : List Binary64} :
    divisors.foldlM div? x = none ↔ ∃ y ∈ divisors, y.isZero := by
  induction divisors generalizing x with
  | nil => simp
  | cons y divisors ih =>
    rw [List.foldlM_cons, List.exists_mem_cons_iff]
    cases hquotient : div? x y with
    | none => exact iff_of_true rfl (.inl (div?_eq_none_iff.mp hquotient))
    | some z =>
      have hy : ¬y.isZero := fun hzero =>
        Option.some_ne_none z (hquotient.symm.trans (div?_eq_none_iff.mpr hzero))
      exact ih.trans (or_iff_right hy).symm

theorem isZero_iff {x : Binary64} : x.isZero ↔ x = zero false ∨ x = zero true := by
  cases x with
  | nan => simp [isZero, zero]
  | signed s a =>
    have hrank : a.val = 0 ↔ a = clampRank 0 := by rw [Fin.ext_iff, val_clampRank, Nat.zero_min]
    cases s <;> simp [isZero, zero, hrank]

end Binary64

namespace Number

-- The smallest magnitude that rounds to infinity lies half a unit in the last place past the
-- largest double.
def TooLarge : Number → Prop
  | .int k => 2 ^ 1024 - 2 ^ 970 ≤ k.natAbs
  | .float _ => False

instance (n : Number) : Decidable n.TooLarge :=
  match n with
  | .int k => inferInstanceAs (Decidable (_ ≤ k.natAbs))
  | .float _ => inferInstanceAs (Decidable False)

def IsZero (n : Number) : Prop :=
  n = .int 0 ∨ n = .float (.zero false) ∨ n = .float (.zero true)

theorem widen?_eq_none_iff {n : Number} : n.widen? = none ↔ n.TooLarge := by
  cases n with
  | int k =>
    have hsome := Binary64.ofInt?_isSome_iff k
    rw [widen?, TooLarge, ← Nat.not_lt, ← hsome, Option.not_isSome_iff_eq_none]
  | float x => exact iff_of_false (Option.some_ne_none x) id

theorem isZero_widened_iff {n : Number} (h : n.widen? = some n.widened) :
    n.widened.isZero ↔ n.IsZero := by
  cases n with
  | int k =>
    rw [Binary64.isZero_of_ofInt? h]
    simp [IsZero]
  | float x =>
    rw [Binary64.isZero_iff]
    simp [IsZero, widened, widen?]

end Number

namespace Primitive

-- A call that fails with an error of this kind.
def FailsBy (result : Except Failure Expr) (kind : EvalErrorKind) : Prop :=
  ∃ error, result = .error (.eval error) ∧ error.kind = kind

theorem failsBy_error_iff {error : EvalError} {kind : EvalErrorKind} :
    FailsBy (.error (.eval error)) kind ↔ error.kind = kind := by
  constructor
  · rintro ⟨_, herror, hkind⟩
    cases herror
    exact hkind
  · exact fun hkind => ⟨error, rfl, hkind⟩

theorem not_failsBy_ok (value : Expr) (kind : EvalErrorKind) : ¬FailsBy (.ok value) kind := by
  rintro ⟨_, herror, -⟩
  cases herror

theorem kind_of_failsBy {error : EvalError} {kind : EvalErrorKind}
    (h : FailsBy (.error (.ofEvalError error)) kind) : error.kind = kind := by
  obtain ⟨_, herror, hkind⟩ := h
  rw [Failure.ofEvalError] at herror
  split at herror <;> cases herror
  exact hkind

-- The four that combine numbers.
def arithmeticals : List Primitive := [.add, .sub, .mul, .div]

-- What integers come to.
def total (p : Primitive) (head : Int) (tail : List Int) : Int :=
  match p with
  | .add => head + tail.sum
  | .sub => head - tail.sum
  | .mul => head * tail.prod
  | _ => head

-- The operations on doubles. Only a quotient may be missing.
def rounded (p : Primitive) (x y : Binary64) : Option Binary64 :=
  match p with
  | .add => some (x.add y)
  | .sub => some (x.sub y)
  | .mul => some (x.mul y)
  | _ => x.div? y

variable {p : Primitive}

theorem eq_of_mem (hp : p ∈ arithmeticals) : p = .add ∨ p = .sub ∨ p = .mul ∨ p = .div := by
  simpa [arithmeticals] using hp

theorem apply_of_mem (hp : p ∈ arithmeticals) : p.apply = arithmetic p := by
  rcases eq_of_mem hp with rfl | rfl | rfl | rfl <;> rfl

theorem ofEvalError_of_shown? {error : EvalError} (h : error.shown? = none) :
    Failure.ofEvalError error = .eval error := by
  rw [Failure.ofEvalError, EvalError.printable, h, if_pos rfl]

theorem call_nil (hp : p ∈ arithmeticals) : p.call [] = .error (.eval (.noArguments p)) := by
  rw [call, apply_of_mem hp]
  exact congrArg Except.error (ofEvalError_of_shown? rfl)

theorem call_of_find? (hp : p ∈ arithmeticals) {args : List Expr} {e : Expr}
    (h : args.find? (·.number?.isNone) = some e) :
    p.call args = .error (.ofEvalError (.notANumber p e)) := by
  rw [call, apply_of_mem hp, arithmetic, numbers_of_find? h]
  · rfl
  · exact fun n hn => by cases hn

theorem call_numbers (hp : p ∈ arithmeticals) (n : Number) (ns : List Number) :
    p.call ((n :: ns).map .number) =
      ((fold p (n :: ns)).map Expr.number).mapError .ofEvalError := by
  rw [call, apply_of_mem hp, arithmetic, numbers_map]
  · rfl
  · exact fun n hn => by cases hn

theorem call_single (hp : p ∈ arithmeticals) (n : Number) :
    p.call [.number n] = .ok (.number n) :=
  call_numbers hp n []

theorem total_nil {combine : Int → Int → Int} (h : combineExact? p = some combine) (head : Int) :
    p.total head [] = head := by
  cases p <;> cases h <;> simp [total]

theorem total_cons {combine : Int → Int → Int} (h : combineExact? p = some combine)
    (head next : Int) (tail : List Int) :
    p.total head (next :: tail) = p.total (combine head next) tail := by
  cases p <;> cases h <;> simp only [total, List.sum_cons, List.prod_cons] <;> ring

theorem foldl_eq_total {combine : Int → Int → Int} (h : combineExact? p = some combine)
    (head : Int) (tail : List Int) : tail.foldl combine head = p.total head tail := by
  induction tail generalizing head with
  | nil => exact (total_nil h head).symm
  | cons next tail ih => rw [List.foldl_cons, ih, total_cons h]

theorem exists_combineExact? (hp : p ∈ arithmeticals) (hdiv : p ≠ .div) :
    ∃ combine, combineExact? p = some combine := by
  rcases eq_of_mem hp with rfl | rfl | rfl | rfl
  · exact ⟨_, rfl⟩
  · exact ⟨_, rfl⟩
  · exact ⟨_, rfl⟩
  · exact absurd rfl hdiv

-- Integers stay exact, whatever their size.
theorem call_ints (hp : p ∈ arithmeticals) (hdiv : p ≠ .div) (head : Int) (tail : List Int) :
    p.call ((head :: tail).map fun k => .number (.int k)) =
      .ok (.number (.int (p.total head tail))) := by
  obtain ⟨combine, hcombine⟩ := exists_combineExact? hp hdiv
  have hcall := call_numbers hp (.int head) (tail.map .int)
  rw [← List.map_cons, fold_ints hcombine, foldl_eq_total hcombine, List.map_map] at hcall
  exact hcall

theorem combine_eq_rounded (p : Primitive) (x y : Binary64) :
    combine p x y = match rounded p x y with
      | some z => .ok z
      | none => .error (.divisionByZero p) := by
  cases p <;> rfl

theorem foldlM_combine (p : Primitive) (x : Binary64) (values : List Binary64) :
    values.foldlM (combine p) x = match values.foldlM (rounded p) x with
      | some z => .ok z
      | none => .error (.divisionByZero p) := by
  induction values generalizing x with
  | nil => rfl
  | cons y values ih =>
    rw [List.foldlM_cons, List.foldlM_cons, combine_eq_rounded]
    cases rounded p x y with
    | none => rfl
    | some z => exact ih z

-- Doubles are combined without fail, unless one of them is divided by zero.
theorem foldlM_rounded_eq_none_iff (hp : p ∈ arithmeticals) (x : Binary64)
    (values : List Binary64) :
    values.foldlM (rounded p) x = none ↔ p = .div ∧ ∃ y ∈ values, y.isZero := by
  have htotal (f : Binary64 → Binary64 → Binary64) :
      values.foldlM (fun x y => some (f x y)) x ≠ none := by
    have hfold : values.foldlM (fun x y => some (f x y)) x = some (values.foldl f x) :=
      List.foldlM_pure
    rw [hfold]
    exact Option.some_ne_none _
  rcases eq_of_mem hp with rfl | rfl | rfl | rfl
  · exact iff_of_false (htotal Binary64.add) fun h => by cases h.1
  · exact iff_of_false (htotal Binary64.sub) fun h => by cases h.1
  · exact iff_of_false (htotal Binary64.mul) fun h => by cases h.1
  · exact Binary64.foldlM_div?_eq_none_iff.trans (and_iff_right rfl).symm

theorem foldWidened_of_exists {ns : List Number} (h : ∃ n ∈ ns, n.widen? = none) :
    foldWidened p ns = .error (.tooLargeToWiden p) := by
  rw [foldWidened, widenAll, Number.mapM_widen?_eq_none_iff.mpr h]
  rfl

theorem foldWidened_cons {n : Number} {ns : List Number}
    (h : (n :: ns).mapM Number.widen? = some ((n :: ns).map Number.widened)) :
    foldWidened p (n :: ns) =
      match (ns.map Number.widened).foldlM (rounded p) n.widened with
      | some x => .ok (.float x)
      | none => .error (.divisionByZero p) := by
  have hfold : foldWidened p (n :: ns) =
      ((ns.map Number.widened).foldlM (combine p) n.widened).map Number.float := by
    rw [foldWidened, widenAll, h]
    rfl
  rw [hfold, foldlM_combine]
  cases (ns.map Number.widened).foldlM (rounded p) n.widened <;> rfl

-- A double among the operands or a division keeps the others from being exact.
theorem call_widened (hp : p ∈ arithmeticals) {n next : Number} {ns : List Number}
    (hwidens : p = .div ∨ ∃ m ∈ n :: next :: ns, m.isFloat) :
    p.call ((n :: next :: ns).map .number) =
      ((foldWidened p (n :: next :: ns)).map Expr.number).mapError .ofEvalError := by
  have hnone : exactOperands? p (n :: next :: ns) = none := by
    rcases exactOperands?_cases p (n :: next :: ns) with ⟨_, ints, hexact, hints⟩ | ⟨-, hnone⟩
    · rcases hwidens with rfl | ⟨m, hm, hfloat⟩
      · cases hexact
      · rw [hints] at hm
        obtain ⟨k, -, rfl⟩ := List.mem_map.mp hm
        cases hfloat
    · exact hnone
  rw [call_numbers hp, fold_of_exactOperands?_eq_none hnone]

-- What becomes of two or more numbers that are not all kept exact.
theorem call_widened_cases (hp : p ∈ arithmeticals) {numbers : List Number}
    (hlength : 2 ≤ numbers.length) (hwidens : p = .div ∨ ∃ n ∈ numbers, n.isFloat) :
    (∃ n ∈ numbers, n.TooLarge) ∧
        p.call (numbers.map .number) = .error (.eval (.tooLargeToWiden p)) ∨
      (∀ n ∈ numbers, ¬n.TooLarge) ∧
        ((p = .div ∧ ∃ n ∈ numbers.tail, n.IsZero) ∧
            p.call (numbers.map .number) = .error (.eval (.divisionByZero p)) ∨
          ¬(p = .div ∧ ∃ n ∈ numbers.tail, n.IsZero) ∧
            ∃ head tail x, numbers.mapM Number.widen? = some (head :: tail) ∧
              tail.foldlM p.rounded head = some x ∧
              p.call (numbers.map .number) = .ok (.number (.float x))) := by
  obtain ⟨n, next, ns, rfl⟩ : ∃ n next ns, numbers = n :: next :: ns := by
    match numbers, hlength with
    | n :: next :: ns, _ => exact ⟨n, next, ns, rfl⟩
  rw [call_widened hp hwidens]
  rcases Number.mapM_widen?_cases (n :: next :: ns) with ⟨hall, hmapM⟩ | ⟨⟨m, hm, hlarge⟩, -⟩
  · have hfits : ∀ m ∈ n :: next :: ns, ¬m.TooLarge := fun m hm hlarge =>
      Option.some_ne_none _ ((hall m hm).symm.trans (Number.widen?_eq_none_iff.mpr hlarge))
    have hzero : (∃ y ∈ (next :: ns).map Number.widened, y.isZero) ↔
        ∃ m ∈ next :: ns, m.IsZero := by
      simp only [List.mem_map, exists_exists_and_eq_and]
      refine exists_congr fun m => and_congr_right fun hm => ?_
      exact Number.isZero_widened_iff (hall m (List.mem_cons_of_mem n hm))
    have hnone := foldlM_rounded_eq_none_iff hp n.widened ((next :: ns).map Number.widened)
    rw [hzero] at hnone
    refine .inr ⟨hfits, ?_⟩
    rw [foldWidened_cons hmapM, hmapM]
    cases hresult : ((next :: ns).map Number.widened).foldlM (rounded p) n.widened with
    | none =>
      refine .inl ⟨hnone.mp hresult, ?_⟩
      exact congrArg Except.error (ofEvalError_of_shown? rfl)
    | some x =>
      refine .inr ⟨fun hzero => ?_, _, _, x, rfl, hresult, rfl⟩
      exact Option.some_ne_none x (hresult.symm.trans (hnone.mpr hzero))
  · refine .inl ⟨⟨m, hm, Number.widen?_eq_none_iff.mp hlarge⟩, ?_⟩
    rw [foldWidened_of_exists ⟨m, hm, hlarge⟩]
    exact congrArg Except.error (ofEvalError_of_shown? rfl)

end Primitive

-- Integers in calls to one primitive, nested in any way.
inductive Nest where
  | int (k : Int)
  | call (first : Nest) (rest : List Nest)

namespace Nest

mutual

def value (p : Primitive) : Nest → Except Failure Expr
  | int k => .ok (.number (.int k))
  | call first rest => do
    let head ← first.value p
    let tail ← values p rest
    p.call (head :: tail)

def values (p : Primitive) : List Nest → Except Failure (List Expr)
  | [] => .ok []
  | nest :: rest => do
    let head ← nest.value p
    let tail ← values p rest
    return head :: tail

end

mutual

def leaves : Nest → List Int
  | int k => [k]
  | call first rest => first.leaves ++ leavesOf rest

def leavesOf : List Nest → List Int
  | [] => []
  | nest :: rest => nest.leaves ++ leavesOf rest

end

-- The operations that can be regrouped, on any number of integers.
def gathered (p : Primitive) (ints : List Int) : Int :=
  if p = .add then ints.sum else ints.prod

variable {p : Primitive}

theorem gathered_singleton (p : Primitive) (k : Int) : gathered p [k] = k := by
  simp [gathered]

theorem gathered_append {first first' rest rest' : List Int}
    (hfirst : gathered p first = gathered p first') (hrest : gathered p rest = gathered p rest') :
    gathered p (first ++ rest) = gathered p (first' ++ rest') := by
  by_cases hp : p = .add
  · simp only [gathered, if_pos hp, List.sum_append] at hfirst hrest ⊢
    rw [hfirst, hrest]
  · simp only [gathered, if_neg hp, List.prod_append] at hfirst hrest ⊢
    rw [hfirst, hrest]

theorem gathered_perm {ints other : List Int} (h : ints.Perm other) :
    gathered p ints = gathered p other := by
  unfold gathered
  split
  · exact h.sum_eq
  · exact h.prod_eq

theorem call_gathered (hp : p = .add ∨ p = .mul) {ints : List Int} (hne : ints ≠ []) :
    p.call (ints.map fun k => .number (.int k)) = .ok (.number (.int (gathered p ints))) := by
  obtain ⟨head, tail, rfl⟩ := List.exists_cons_of_ne_nil hne
  rcases hp with rfl | rfl
  · rw [Primitive.call_ints (by decide) (by decide)]
    simp [gathered, Primitive.total]
  · rw [Primitive.call_ints (by decide) (by decide)]
    simp [gathered, Primitive.total]

mutual

theorem value_eq (hp : p = .add ∨ p = .mul) (nest : Nest) :
    nest.value p = .ok (.number (.int (gathered p nest.leaves))) := by
  match nest with
  | int k => rw [value, leaves, gathered_singleton]
  | call first rest =>
    obtain ⟨ints, hvalues, hints⟩ := values_eq hp rest
    have hcall := call_gathered hp (List.cons_ne_nil (gathered p first.leaves) ints)
    have hhead := gathered_append (gathered_singleton p (gathered p first.leaves)) hints
    rw [value, value_eq hp first, hvalues, leaves, ← hhead]
    exact hcall

theorem values_eq (hp : p = .add ∨ p = .mul) (nests : List Nest) :
    ∃ ints : List Int, values p nests = .ok (ints.map fun k => .number (.int k)) ∧
      gathered p ints = gathered p (leavesOf nests) := by
  match nests with
  | [] => exact ⟨[], rfl, rfl⟩
  | nest :: rest =>
    obtain ⟨ints, hvalues, hints⟩ := values_eq hp rest
    refine ⟨gathered p nest.leaves :: ints, ?_, ?_⟩
    · rw [values, value_eq hp nest, hvalues]
      rfl
    · exact gathered_append (gathered_singleton p (gathered p nest.leaves)) hints

end

theorem leaves_ne_nil (nest : Nest) : nest.leaves ≠ [] := by
  match nest with
  | int k => exact List.cons_ne_nil k []
  | call first rest => exact List.append_ne_nil_of_left_ne_nil (leaves_ne_nil first) _

end Nest

namespace Primitive

variable {p : Primitive}

-- All that can become of the arguments of +, -, * and /. The first rule that applies is the one
-- that counts.
structure ArithmeticLaw (p : Primitive) : Prop where
  -- No arguments.
  arity (args : List Expr) : FailsBy (p.call args) .arity ↔ args = []
  -- The first argument that is not a number is named, if it has a text.
  offender (args : List Expr) (e : Expr) (hfirst : args.find? (·.number?.isNone) = some e)
    (htext : e.printable) :
    p.call args = .error (.eval (.notANumber p e)) ∧ FailsBy (p.call args) .wrongType
  single (n : Number) : p.call [.number n] = .ok (.number n)
  -- Integers stay exact, unless they are divided.
  exact (hdiv : p ≠ .div) (head next : Int) (tail : List Int) :
    p.call ((head :: next :: tail).map fun k => .number (.int k)) =
      .ok (.number (.int (p.total head (next :: tail))))
  regrouped (hp : p = .add ∨ p = .mul) (nest : Nest) (ints : List Int)
    (hperm : nest.leaves.Perm ints) :
    nest.value p = p.call (ints.map fun k => .number (.int k))
  -- Everything else is widened first.
  tooLarge (numbers : List Number) (hlength : 2 ≤ numbers.length)
    (hwidens : p = .div ∨ ∃ n ∈ numbers, n.isFloat) :
    FailsBy (p.call (numbers.map .number)) .wrongType ↔ ∃ n ∈ numbers, n.TooLarge
  zeroDivisor (numbers : List Number) (hlength : 2 ≤ numbers.length)
    (hwidens : p = .div ∨ ∃ n ∈ numbers, n.isFloat) (hfits : ∀ n ∈ numbers, ¬n.TooLarge) :
    FailsBy (p.call (numbers.map .number)) .divisionByZero ↔
      p = .div ∧ ∃ n ∈ numbers.tail, n.IsZero
  rounded (numbers : List Number) (hlength : 2 ≤ numbers.length)
    (hwidens : p = .div ∨ ∃ n ∈ numbers, n.isFloat) (hfits : ∀ n ∈ numbers, ¬n.TooLarge)
    (hzero : ¬(p = .div ∧ ∃ n ∈ numbers.tail, n.IsZero)) :
    ∃ head tail x, numbers.mapM Number.widen? = some (head :: tail) ∧
      tail.foldlM p.rounded head = some x ∧ p.call (numbers.map .number) = .ok (.number (.float x))

theorem not_failsBy_arity (hp : p ∈ arithmeticals) (n : Number) (ns : List Number) :
    ¬FailsBy (p.call ((n :: ns).map .number)) .arity := by
  cases ns with
  | nil =>
    rw [List.map_cons, List.map_nil, call_single hp]
    exact not_failsBy_ok _ _
  | cons next ns =>
    by_cases hwidens : p = .div ∨ ∃ m ∈ n :: next :: ns, m.isFloat
    · rcases call_widened_cases hp (by simp) hwidens with
        ⟨-, hcall⟩ | ⟨-, ⟨-, hcall⟩ | ⟨-, _, _, _, -, -, hcall⟩⟩ <;> rw [hcall]
      · exact fun h => by cases failsBy_error_iff.mp h
      · exact fun h => by cases failsBy_error_iff.mp h
      · exact not_failsBy_ok _ _
    · rw [not_or, not_exists] at hwidens
      obtain ⟨ints, hints⟩ := Number.exists_ints fun m hm hfloat => hwidens.2 m ⟨hm, hfloat⟩
      obtain ⟨head, tail, rfl⟩ := List.exists_cons_of_ne_nil fun hnil : ints = [] => by
        rw [hnil] at hints
        cases hints
      rw [hints, List.map_map]
      exact call_ints hp hwidens.1 head tail ▸ not_failsBy_ok _ _

theorem failsBy_arity_iff (hp : p ∈ arithmeticals) (args : List Expr) :
    FailsBy (p.call args) .arity ↔ args = [] := by
  rcases args_cases args with rfl | ⟨e, hfirst⟩ | ⟨n, ns, rfl⟩
  · exact iff_of_true ⟨_, call_nil hp, rfl⟩ rfl
  · refine iff_of_false (fun h => ?_) fun hnil => by cases hnil ▸ hfirst
    rw [call_of_find? hp hfirst] at h
    cases kind_of_failsBy h
  · exact iff_of_false (not_failsBy_arity hp n ns) (List.cons_ne_nil _ _)

-- Checks come in a fixed order, and integers are only widened if they have to be.
theorem arithmetic_law (hp : p ∈ arithmeticals) : ArithmeticLaw p where
  arity := failsBy_arity_iff hp
  offender args e hfirst htext := by
    have hcall : p.call args = .error (.eval (.notANumber p e)) := by
      rw [call_of_find? hp hfirst, Failure.ofEvalError]
      exact congrArg Except.error (if_pos htext)
    exact ⟨hcall, .notANumber p e, hcall, rfl⟩
  single := call_single hp
  exact hdiv head next tail := call_ints hp hdiv head (next :: tail)
  regrouped hadd nest ints hperm := by
    have hne : ints ≠ [] := fun hnil =>
      nest.leaves_ne_nil (List.perm_nil.mp (hnil ▸ hperm))
    rw [Nest.value_eq hadd, Nest.call_gathered hadd hne, Nest.gathered_perm hperm]
  tooLarge numbers hlength hwidens := by
    rcases call_widened_cases hp hlength hwidens with
      ⟨hlarge, hcall⟩ | ⟨hfits, ⟨-, hcall⟩ | ⟨-, _, _, _, -, -, hcall⟩⟩
    · exact iff_of_true ⟨_, hcall, rfl⟩ hlarge
    · rw [hcall, failsBy_error_iff]
      exact iff_of_false (by simp [EvalError.kind]) (by simpa using hfits)
    · rw [hcall]
      exact iff_of_false (not_failsBy_ok _ _) (by simpa using hfits)
  zeroDivisor numbers hlength hwidens hfits := by
    rcases call_widened_cases hp hlength hwidens with
      ⟨⟨n, hn, hlarge⟩, -⟩ | ⟨-, ⟨hzero, hcall⟩ | ⟨hzero, _, _, _, -, -, hcall⟩⟩
    · exact absurd hlarge (hfits n hn)
    · exact iff_of_true ⟨_, hcall, rfl⟩ hzero
    · rw [hcall]
      exact iff_of_false (not_failsBy_ok _ _) hzero
  rounded numbers hlength hwidens hfits hzero := by
    rcases call_widened_cases hp hlength hwidens with
      ⟨⟨n, hn, hlarge⟩, -⟩ | ⟨-, ⟨hzero', -⟩ | ⟨-, hcall⟩⟩
    · exact absurd hlarge (hfits n hn)
    · exact absurd hzero' hzero
    · exact hcall

theorem arithmetic_law_at_limits :
    let call (p : Primitive) (numbers : List Number) := p.call (numbers.map .number)
    let limit : Int := 2 ^ 1024 - 2 ^ 970
    (.mul ∈ arithmeticals ∧ .div ∈ arithmeticals) ∧
      call .mul [.int limit, .int limit] = .ok (.number (.int (limit * limit))) ∧
      FailsBy (call .div [.int 1, .int limit]) .wrongType ∧
      FailsBy (call .div [.int (limit - 1), .float (.zero true)]) .divisionByZero ∧
      ∃ x, call .mul [.int (limit - 1), .float (.zero true)] = .ok (.number (.float x)) := by
  intro call limit
  have hmul : Primitive.mul ∈ arithmeticals := by decide
  have hdiv : Primitive.div ∈ arithmeticals := by decide
  have hfits : ∀ n ∈ [Number.int (limit - 1), .float (.zero true)], ¬n.TooLarge := by
    decide +kernel
  refine ⟨⟨hmul, hdiv⟩, ?_, ?_, ?_, ?_⟩
  · have hexact := (arithmetic_law hmul).exact (by decide) limit limit []
    rwa [total, List.prod_singleton] at hexact
  · refine ((arithmetic_law hdiv).tooLarge [.int 1, .int limit] (by decide) (.inl rfl)).mpr ?_
    exact ⟨.int limit, by simp, by decide +kernel⟩
  · refine ((arithmetic_law hdiv).zeroDivisor [.int (limit - 1), .float (.zero true)] (by decide)
      (.inl rfl) hfits).mpr ⟨rfl, .float (.zero true), by simp, .inr (.inr rfl)⟩
  · obtain ⟨_, _, x, -, -, hcall⟩ := (arithmetic_law hmul).rounded
      [.int (limit - 1), .float (.zero true)] (by decide)
      (.inr ⟨.float (.zero true), by simp, rfl⟩) hfits fun h => by cases h.1
    exact ⟨x, hcall⟩

end Primitive

end Lisplet
