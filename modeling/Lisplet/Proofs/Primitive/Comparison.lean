import Lisplet.Proofs.Primitive.Arithmetic

namespace Lisplet

namespace Primitive

-- What a comparison asks of an operand and a later one.
def relation? : Primitive → Option (Binary64 → Binary64 → Bool)
  | .gt => some fun x y => y.lt x
  | .ge => some fun x y => y.le x
  | .lt => some Binary64.lt
  | .le => some Binary64.le
  | .eq => some Binary64.eq
  | _ => none

variable {p : Primitive} {related : Binary64 → Binary64 → Bool}

theorem relation?_trans (hp : p.relation? = some related) (x y z : Binary64)
    (hxy : related x y) (hyz : related y z) : related x z := by
  cases p <;> cases hp
  · exact Binary64.lt_trans hyz hxy
  · exact Binary64.le_trans hyz hxy
  · exact Binary64.lt_trans hxy hyz
  · exact Binary64.le_trans hxy hyz
  · exact Binary64.eq_trans hxy hyz

theorem adjacent_iff_isChain (values : List Binary64) :
    adjacent related values ↔ values.IsChain fun x y => related x y := by
  induction values with
  | nil => simp [adjacent]
  | cons x values ih =>
    cases values with
    | nil => simp [adjacent]
    | cons y values => rw [adjacent, Bool.and_eq_true, ih, List.isChain_cons_cons]

-- Neighbours are enough, as the relations are transitive.
theorem adjacent_iff_pairwise (hp : p.relation? = some related) (values : List Binary64) :
    adjacent related values ↔ values.Pairwise fun x y => related x y := by
  have : Trans (fun x y => related x y = true) (fun x y => related x y = true)
      (fun x y => related x y = true) := ⟨relation?_trans hp _ _ _⟩
  rw [adjacent_iff_isChain, List.isChain_iff_pairwise]

theorem apply_of_relation? (hp : p.relation? = some related) (n : Number) (ns : List Number) :
    p.apply (.list ((n :: ns).map .number)) = chain p related (.list ((n :: ns).map .number)) := by
  cases p <;> cases hp
  case eq => cases ns <;> rfl
  all_goals rfl

theorem call_comparison (hp : p.relation? = some related) (n : Number) (ns : List Number) :
    p.call ((n :: ns).map .number) = match (n :: ns).mapM Number.widen? with
      | some values => .ok (.bool (adjacent related values))
      | none => .error (.eval (.tooLargeToWiden p)) := by
  have hcall : p.call ((n :: ns).map .number) =
      ((widenAll p (n :: ns)).map fun values => .bool (adjacent related values)).mapError
        .ofEvalError := by
    rw [call, apply_of_relation? hp, chain, numbers_map]
    rfl
  rw [hcall, widenAll]
  cases (n :: ns).mapM Number.widen? with
  | some values => rfl
  | none => exact congrArg Except.error (ofEvalError_of_shown? rfl)

variable {numbers : List Number}

theorem call_of_widen (hp : p.relation? = some related) (hne : numbers ≠ [])
    (hwiden : ∀ n ∈ numbers, n.widen? = some n.widened) :
    p.call (numbers.map .number) = .ok (.bool (adjacent related (numbers.map Number.widened))) := by
  obtain ⟨n, ns, rfl⟩ := List.exists_cons_of_ne_nil hne
  rw [call_comparison hp, Number.mapM_widen?_eq_some_iff.mpr ⟨hwiden, rfl⟩]

theorem adjacent_widened_iff (hp : p.relation? = some related) (numbers : List Number) :
    adjacent related (numbers.map Number.widened) ↔
      numbers.Pairwise fun m n => related m.widened n.widened := by
  rw [adjacent_iff_pairwise hp, List.pairwise_map]

theorem call_eq_true_iff (hp : p.relation? = some related) (hne : numbers ≠ [])
    (hwiden : ∀ n ∈ numbers, n.widen? = some n.widened) :
    p.call (numbers.map .number) = .ok (.bool true) ↔
      numbers.Pairwise fun m n => related m.widened n.widened := by
  rw [call_of_widen hp hne hwiden, ← adjacent_widened_iff hp]
  simp

theorem call_eq_call {q : Primitive} {related' : Binary64 → Binary64 → Bool} {others : List Number}
    (hp : p.relation? = some related) (hq : q.relation? = some related')
    (hne : numbers ≠ []) (hne' : others ≠ [])
    (hwiden : ∀ n ∈ numbers, n.widen? = some n.widened)
    (hwiden' : ∀ n ∈ others, n.widen? = some n.widened)
    (h : (numbers.Pairwise fun m n => related m.widened n.widened) ↔
      others.Pairwise fun m n => related' m.widened n.widened) :
    p.call (numbers.map .number) = q.call (others.map .number) := by
  rw [call_of_widen hp hne hwiden, call_of_widen hq hne' hwiden']
  rw [← adjacent_widened_iff hp, ← adjacent_widened_iff hq] at h
  rw [Bool.eq_iff_iff.mpr h]

theorem call_eq_reverse {q : Primitive} (hp : p.relation? = some related)
    (hq : q.relation? = some fun x y => related y x) (hne : numbers ≠ [])
    (hwiden : ∀ n ∈ numbers, n.widen? = some n.widened) :
    p.call (numbers.map .number) = q.call (numbers.reverse.map .number) := by
  refine call_eq_call hp hq hne (List.reverse_ne_nil_iff.mpr hne) hwiden ?_ ?_
  · exact fun n hn => hwiden n (List.mem_reverse.mp hn)
  · rw [List.pairwise_reverse]

section

variable {ints : List Int} {holds : Int → Int → Bool}

-- Integers are compared by their places after rounding.
theorem call_ints_eq_true_iff (hp : p.relation? = some (Binary64.compareBy holds)) (hne : ints ≠ [])
    (hwiden : ∀ n ∈ ints.map Number.int, n.widen? = some n.widened) :
    p.call ((ints.map Number.int).map .number) = .ok (.bool true) ↔
      ints.Pairwise fun m n => holds (Binary64.roundedPosition m) (Binary64.roundedPosition n) := by
  rw [call_eq_true_iff hp (mt List.map_eq_nil_iff.mp hne) hwiden, List.pairwise_map]
  refine List.Pairwise.iff_of_mem fun {m n} hm hn => ?_
  rw [Binary64.compareBy_of_ofInt? (hwiden _ (List.mem_map_of_mem hm))
    (hwiden _ (List.mem_map_of_mem hn))]

theorem relation?_lt : relation? .lt = some (Binary64.compareBy fun a b => a < b) := rfl

theorem relation?_le : relation? .le = some (Binary64.compareBy fun a b => a ≤ b) := rfl

theorem pairwise_lt_of_call (hne : ints ≠ [])
    (hwiden : ∀ n ∈ ints.map Number.int, n.widen? = some n.widened)
    (hcall : call .lt ((ints.map Number.int).map .number) = .ok (.bool true)) :
    ints.Pairwise (· < ·) := by
  refine ((call_ints_eq_true_iff relation?_lt hne hwiden).mp hcall).imp fun {m n} hlt => ?_
  by_contra hge
  exact (Binary64.roundedPosition_mono (Int.not_lt.mp hge)).not_gt (of_decide_eq_true hlt)

theorem call_of_pairwise_le (hne : ints ≠ [])
    (hwiden : ∀ n ∈ ints.map Number.int, n.widen? = some n.widened)
    (hpairs : ints.Pairwise (· ≤ ·)) :
    call .le ((ints.map Number.int).map .number) = .ok (.bool true) := by
  refine (call_ints_eq_true_iff relation?_le hne hwiden).mpr (hpairs.imp fun {m n} hle => ?_)
  exact decide_eq_true (Binary64.roundedPosition_mono hle)

theorem widen?_of_small {k : Int} (hsmall : k.natAbs ≤ 2 ^ 53) :
    (Number.int k).widen? = some (Number.int k).widened := by
  have hsome := (Binary64.ofInt?_isSome_iff k).mpr
    (Nat.lt_of_le_of_lt hsmall (by decide +kernel))
  obtain ⟨x, hx⟩ := Option.isSome_iff_exists.mp hsome
  rw [Number.widened, Number.widen?, hx, Option.getD_some]

theorem call_of_pairwise_lt (hne : ints ≠ [])
    (hwiden : ∀ n ∈ ints.map Number.int, n.widen? = some n.widened)
    (hsmall : ∀ k ∈ ints, k.natAbs ≤ 2 ^ 53) (hpairs : ints.Pairwise (· < ·)) :
    call .lt ((ints.map Number.int).map .number) = .ok (.bool true) := by
  refine (call_ints_eq_true_iff relation?_lt hne hwiden).mpr ?_
  refine hpairs.imp_of_mem fun {m n} hm hn hlt => ?_
  exact decide_eq_true (Binary64.roundedPosition_lt (hsmall m hm) (hsmall n hn) hlt)

theorem pairwise_le_of_call (hne : ints ≠ [])
    (hwiden : ∀ n ∈ ints.map Number.int, n.widen? = some n.widened)
    (hsmall : ∀ k ∈ ints, k.natAbs ≤ 2 ^ 53)
    (hcall : call .le ((ints.map Number.int).map .number) = .ok (.bool true)) :
    ints.Pairwise (· ≤ ·) := by
  have hpairs := (call_ints_eq_true_iff relation?_le hne hwiden).mp hcall
  refine hpairs.imp_of_mem fun {m n} hm hn hle => ?_
  by_contra hgt
  exact (Binary64.roundedPosition_lt (hsmall n hn) (hsmall m hm) (Int.not_le.mp hgt)).not_ge
    (of_decide_eq_true hle)

end

-- All that comparisons say of numbers.
structure ComparisonLaw (numbers : List Number) : Prop where
  -- An answer is about all pairs.
  order (values : List Binary64) (hvalues : numbers.mapM Number.widen? = some values)
    (p : Primitive) (related : Binary64 → Binary64 → Bool) (hp : p.relation? = some related) :
    ∃ answer, p.call (numbers.map .number) = .ok (.bool answer) ∧
      (answer = true ↔ ∀ (i j : Nat) (hi : i < values.length) (hj : j < values.length), i < j →
        related values[i] values[j])
  reversed (values : List Binary64) (hvalues : numbers.mapM Number.widen? = some values) :
    call .gt (numbers.map .number) = call .lt (numbers.reverse.map .number) ∧
      call .ge (numbers.map .number) = call .le (numbers.reverse.map .number)
  equal (values : List Binary64) (hvalues : numbers.mapM Number.widen? = some values) :
    ∃ answer, call .eq (numbers.map .number) = .ok (.bool answer) ∧
      (answer = true ↔ ∀ (i j : Nat) (hi : i < values.length) (hj : j < values.length), i ≠ j →
        values[i].eq values[j])
  permuted (values : List Binary64) (hvalues : numbers.mapM Number.widen? = some values)
    (other : List Number) (hperm : numbers.Perm other) :
    call .eq (numbers.map .number) = call .eq (other.map .number)
  -- Rounding may make integers equal, but never turns their order.
  ints (values : List Binary64) (hvalues : numbers.mapM Number.widen? = some values)
    (ints : List Int) (hints : numbers = ints.map .int) :
    (call .lt (numbers.map .number) = .ok (.bool true) → ints.Pairwise (· < ·)) ∧
      (ints.Pairwise (· ≤ ·) → call .le (numbers.map .number) = .ok (.bool true))
  smallInts (ints : List Int) (hints : numbers = ints.map .int)
    (hsmall : ∀ k ∈ ints, k.natAbs ≤ 2 ^ 53) :
    (call .lt (numbers.map .number) = .ok (.bool true) ↔ ints.Pairwise (· < ·)) ∧
      (call .le (numbers.map .number) = .ok (.bool true) ↔ ints.Pairwise (· ≤ ·))
  tooLarge (hlarge : ∃ n ∈ numbers, n.widen? = none) (p : Primitive)
    (hp : p ∈ [.lt, .le, .gt, .ge, .eq]) : FailsBy (p.call (numbers.map .number)) .wrongType

-- Neighbours are compared after rounding, which says as much of the exact integers as this.
theorem comparison_law (numbers : List Number) (hne : numbers ≠ []) : ComparisonLaw numbers where
  order values hvalues p related hp := by
    obtain ⟨hwiden, rfl⟩ := Number.mapM_widen?_eq_some_iff.mp hvalues
    refine ⟨_, call_of_widen hp hne hwiden, ?_⟩
    rw [adjacent_iff_pairwise hp, List.pairwise_iff_getElem]
  reversed values hvalues := by
    obtain ⟨hwiden, -⟩ := Number.mapM_widen?_eq_some_iff.mp hvalues
    exact ⟨call_eq_reverse rfl rfl hne hwiden, call_eq_reverse rfl rfl hne hwiden⟩
  equal values hvalues := by
    obtain ⟨hwiden, rfl⟩ := Number.mapM_widen?_eq_some_iff.mp hvalues
    refine ⟨_, call_of_widen rfl hne hwiden, ?_⟩
    rw [adjacent_iff_pairwise (p := .eq) rfl, List.pairwise_iff_getElem]
    refine ⟨fun h i j hi hj hij => ?_, fun h i j hi hj hij => h i j hi hj (Nat.ne_of_lt hij)⟩
    rcases Nat.lt_or_gt_of_ne hij with hlt | hgt
    · exact h i j hi hj hlt
    · rw [Binary64.eq_comm]
      exact h j i hj hi hgt
  permuted values hvalues other hperm := by
    obtain ⟨hwiden, -⟩ := Number.mapM_widen?_eq_some_iff.mp hvalues
    have hother : other ≠ [] := fun hnil => hne (List.perm_nil.mp (hnil ▸ hperm))
    refine call_eq_call rfl rfl hne hother hwiden (fun n hn => hwiden n (hperm.mem_iff.mpr hn)) ?_
    refine hperm.pairwise_iff fun {m n} h => ?_
    rwa [Binary64.eq_comm]
  ints values hvalues ints hints := by
    obtain ⟨hwiden, -⟩ := Number.mapM_widen?_eq_some_iff.mp hvalues
    subst hints
    have hne' : ints ≠ [] := mt List.map_eq_nil_iff.mpr hne
    exact ⟨pairwise_lt_of_call hne' hwiden, call_of_pairwise_le hne' hwiden⟩
  smallInts ints hints hsmall := by
    subst hints
    have hne' : ints ≠ [] := mt List.map_eq_nil_iff.mpr hne
    have hwiden : ∀ n ∈ ints.map Number.int, n.widen? = some n.widened :=
      List.forall_mem_map.mpr fun k hk => widen?_of_small (hsmall k hk)
    exact ⟨⟨pairwise_lt_of_call hne' hwiden, call_of_pairwise_lt hne' hwiden hsmall⟩,
      ⟨pairwise_le_of_call hne' hwiden hsmall, call_of_pairwise_le hne' hwiden⟩⟩
  tooLarge hlarge p hp := by
    obtain ⟨related, hrelated⟩ : ∃ related, p.relation? = some related := by
      simp only [List.mem_cons, List.not_mem_nil, or_false] at hp
      rcases hp with rfl | rfl | rfl | rfl | rfl <;> exact ⟨_, rfl⟩
    obtain ⟨n, ns, rfl⟩ := List.exists_cons_of_ne_nil hne
    rw [call_comparison hrelated, Number.mapM_widen?_eq_none_iff.mpr hlarge]
    exact ⟨_, rfl, rfl⟩

-- 2^53 + 1 lies half-way between two doubles.
theorem comparison_law_past_53_bits :
    let ints : List Int := [2 ^ 53, 2 ^ 53 + 1, 2 ^ 53 + 2]
    let numbers : List Number := ints.map .int
    numbers ≠ [] ∧ (numbers.mapM Number.widen?).isSome ∧ ints.Pairwise (· < ·) ∧
      call .le (numbers.map .number) = .ok (.bool true) ∧
      call .ge (numbers.map .number) = call .le (numbers.reverse.map .number) ∧
      FailsBy (call .eq ([.int (2 ^ 1024), .float .nan].map .number)) .wrongType := by
  intro ints numbers
  have hwidens : (numbers.mapM Number.widen?).isSome := by decide +kernel
  obtain ⟨values, hvalues⟩ := Option.isSome_iff_exists.mp hwidens
  have hlaw := comparison_law numbers (by decide)
  refine ⟨by decide, hwidens, by decide, ?_, (hlaw.reversed values hvalues).2, ?_⟩
  · exact (hlaw.ints values hvalues ints rfl).2 (by decide)
  · refine (comparison_law [.int (2 ^ 1024), .float .nan] (by decide)).tooLarge ?_ .eq (by decide)
    exact ⟨.int (2 ^ 1024), List.mem_cons_self, by decide +kernel⟩

end Primitive

end Lisplet
