import Lisplet.Builtin

namespace Lisplet

-- Whatever error the result is, it is one of these.
def FailsOnly (ok : EvalError → Prop) (result : Except EvalError α) : Prop :=
  ∀ error, result = .error error → ok error

variable {ok : EvalError → Prop}

theorem failsOnly_ok (a : α) : FailsOnly ok (.ok a) := fun _ h => by cases h

theorem failsOnly_error {error : EvalError} (h : ok error) :
    FailsOnly ok (.error error : Except EvalError α) := by
  intro other hother
  cases hother
  exact h

theorem FailsOnly.bind {x : Except EvalError α} {f : α → Except EvalError β}
    (h : FailsOnly ok x) (hf : ∀ a, FailsOnly ok (f a)) : FailsOnly ok (x >>= f) := by
  cases x with
  | error error => exact failsOnly_error (h error rfl)
  | ok a => exact hf a

theorem FailsOnly.mapM {f : α → Except EvalError β} (h : ∀ a, FailsOnly ok (f a))
    (items : List α) : FailsOnly ok (items.mapM f) := by
  induction items with
  | nil => exact failsOnly_ok []
  | cons item items ih =>
    rw [List.mapM_cons]
    exact (h item).bind fun _ => ih.bind fun _ => failsOnly_ok _

theorem FailsOnly.foldlM {f : β → α → Except EvalError β} (h : ∀ b a, FailsOnly ok (f b a))
    (items : List α) (b : β) : FailsOnly ok (items.foldlM f b) := by
  induction items generalizing b with
  | nil => exact failsOnly_ok b
  | cons item items ih =>
    rw [List.foldlM_cons]
    exact (h b item).bind ih

-- The primitive that an error names.
def EvalError.primitive? : EvalError → Option Primitive
  | notArguments p _ | noArguments p | notOneArgument p | notANumber p _ | notAList p _
  | tooLargeToWiden p | emptyList p | divisionByZero p => some p
  | _ => none

namespace Primitive

variable (p : Primitive)

-- The result is no error but one that names the primitive.
def Names (result : Except EvalError α) : Prop := FailsOnly (·.primitive? = some p) result

theorem names_numbers (args : Expr) : p.Names (numbers p args) := by
  unfold numbers
  split
  · exact failsOnly_error rfl
  · refine FailsOnly.mapM (fun item => ?_) _
    split
    · exact failsOnly_ok _
    · exact failsOnly_error rfl
  · exact failsOnly_error rfl

theorem names_widenAll (numbers : List Number) : p.Names (widenAll p numbers) := by
  unfold widenAll
  split
  · exact failsOnly_ok _
  · exact failsOnly_error rfl

theorem names_combine (x y : Binary64) : p.Names (combine p x y) := by
  unfold combine
  split
  · exact failsOnly_ok _
  · exact failsOnly_ok _
  · exact failsOnly_ok _
  · dsimp only
    split
    · exact failsOnly_ok _
    · exact failsOnly_error rfl

theorem names_fold (numbers : List Number) : p.Names (fold p numbers) := by
  unfold fold
  split
  · exact failsOnly_ok _
  · split
    · exact failsOnly_ok _
    · refine (names_widenAll p _).bind fun values => ?_
      split
      · exact (FailsOnly.foldlM (names_combine p) _ _).bind fun _ => failsOnly_ok _
      · exact failsOnly_error rfl

theorem names_arithmetic (args : Expr) : p.Names (arithmetic p args) := by
  unfold arithmetic
  split
  · exact failsOnly_ok _
  · exact (names_numbers p args).bind fun ns => (names_fold p ns).bind fun _ => failsOnly_ok _

theorem names_chain (holds : Binary64 → Binary64 → Bool) (args : Expr) :
    p.Names (chain p holds args) :=
  (names_numbers p args).bind fun ns => (names_widenAll p ns).bind fun _ => failsOnly_ok _

theorem names_equal (args : Expr) : Primitive.eq.Names (equal args) := by
  unfold equal
  split
  · exact failsOnly_ok _
  · exact failsOnly_ok _
  · exact names_chain .eq _ args

theorem names_singleList (args : Expr) : p.Names (singleList p args) := by
  unfold singleList
  split
  · exact failsOnly_ok _
  · exact failsOnly_error rfl
  · exact failsOnly_error rfl

theorem names_firstItem (args : Expr) : first.Names (firstItem args) := by
  refine (names_singleList .first args).bind fun items => ?_
  cases items with
  | nil => exact failsOnly_error rfl
  | cons head tail => exact failsOnly_ok head

theorem names_restItems (args : Expr) : rest.Names (restItems args) := by
  refine (names_singleList .rest args).bind fun items => ?_
  cases items with
  | nil => exact failsOnly_error rfl
  | cons head tail => exact failsOnly_ok (Expr.list tail)

-- Every error of a primitive names the primitive, whatever it is applied to.
theorem names_apply (args : Expr) : p.Names (p.apply args) := by
  cases p with
  | add | sub | mul | div => exact names_arithmetic _ args
  | gt | ge | lt | le => exact names_chain _ _ args
  | eq => exact names_equal args
  | first => exact names_firstItem args
  | rest => exact names_restItems args
  | arguments name => exact failsOnly_ok args

end Primitive

end Lisplet
