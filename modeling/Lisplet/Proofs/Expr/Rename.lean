import Lisplet.Builtin
import Lisplet.Failure
import Lisplet.Proofs.Expr.Traits
import Lisplet.Proofs.Primitive.Causes

namespace Lisplet

namespace Expr

mutual

-- The same expression with other scopes in its closures.
def rename (f : FrameId → FrameId) : Expr → Expr
  | .list items => .list (renameItems f items)
  | .closure params body scope => .closure params (body.rename f) (f scope)
  | .symbol name => .symbol name
  | .number n => .number n
  | .bool b => .bool b
  | .str text => .str text
  | .builtin p => .builtin p

def renameItems (f : FrameId → FrameId) : List Expr → List Expr
  | [] => []
  | item :: rest => item.rename f :: renameItems f rest

end

variable (f : FrameId → FrameId)

@[simp] theorem renameItems_eq_map (items : List Expr) :
    renameItems f items = items.map (rename f) := by
  induction items with
  | nil => rfl
  | cons item items ih => rw [renameItems, ih, List.map_cons]

@[simp] theorem rename_symbol (name : String) : (symbol name).rename f = symbol name := rfl

@[simp] theorem rename_number (n : Number) : (number n).rename f = number n := rfl

@[simp] theorem rename_bool (b : Bool) : (bool b).rename f = bool b := rfl

@[simp] theorem rename_str (text : String) : (str text).rename f = str text := rfl

@[simp] theorem rename_list (items : List Expr) :
    (list items).rename f = list (items.map (rename f)) := by
  rw [rename, renameItems_eq_map]

@[simp] theorem rename_builtin (p : Primitive) : (builtin p).rename f = builtin p := rfl

@[simp] theorem rename_closure (params : List String) (body : Expr) (scope : FrameId) :
    (closure params body scope).rename f = closure params (body.rename f) (f scope) := rfl

@[simp] theorem isFalse_rename (e : Expr) : (e.rename f).isFalse = e.isFalse := by
  cases e with
  | list items => rw [rename_list]; rfl
  | _ => rfl

@[simp] theorem symbol?_rename (e : Expr) : (e.rename f).symbol? = e.symbol? := by
  cases e with
  | list items => rw [rename_list]; rfl
  | _ => rfl

mutual

-- A closure does not show its scope.
@[simp] theorem render_rename : ∀ e : Expr, (e.rename f).render = e.render
  | .list items => by rw [rename, render, render, renderItems_rename items]
  | .closure params body scope => by rw [rename, render, render, render_rename body]
  | .symbol _ | .number _ | .bool _ | .str _ | .builtin _ => rfl

theorem renderItems_rename : ∀ items : List Expr,
    renderItems (renameItems f items) = renderItems items
  | [] => rfl
  | [item] => by
    rw [renameItems, renameItems, renderItems, renderItems, render_rename item]
  | item :: next :: rest => by
    have hrest := renderItems_rename (next :: rest)
    simp only [renameItems] at hrest
    simp only [renameItems, renderItems, render_rename item, hrest]

end

mutual

@[simp] theorem printable_rename : ∀ e : Expr, (e.rename f).printable = e.printable
  | .list items => by rw [rename, printable, printable, printableItems_rename items]
  | .closure params body scope => by rw [rename, printable, printable, printable_rename body]
  | .symbol _ | .number _ | .bool _ | .str _ | .builtin _ => rfl

theorem printableItems_rename : ∀ items : List Expr,
    printableItems (renameItems f items) = printableItems items
  | [] => rfl
  | item :: rest => by
    rw [renameItems, printableItems, printableItems, printable_rename item,
      printableItems_rename rest]

end

-- Nothing changes where the scopes keep their numbers.
theorem rename_eq_self {t : Traits} {e : Expr} (h : e.Has t) (hf : ∀ id, t.scope id → f id = id) :
    e.rename f = e := by
  induction h with
  | list items _ ih => rw [rename_list, List.map_congr_left ih, List.map_id']
  | closure params body scope _ _ hscope ih => rw [rename_closure, ih, hf scope hscope]
  | _ => rfl

mutual

theorem rename_id : ∀ e : Expr, e.rename id = e
  | .list items => by rw [rename, renameItems_id items]
  | .closure params body scope => by rw [rename, rename_id body, id]
  | .symbol _ | .number _ | .bool _ | .str _ | .builtin _ => rfl

theorem renameItems_id : ∀ items : List Expr, renameItems id items = items
  | [] => rfl
  | item :: rest => by rw [renameItems, rename_id item, renameItems_id rest]

end

theorem rename_id_eq : rename id = id := funext rename_id

end Expr

-- The same error about the same expression with other scopes.
def EvalError.rename (f : FrameId → FrameId) : EvalError → EvalError
  | .notCallable e => .notCallable (e.rename f)
  | .notAName e => .notAName (e.rename f)
  | .notParameters e => .notParameters (e.rename f)
  | .tailNotList e => .tailNotList (e.rename f)
  | .notArguments p e => .notArguments p (e.rename f)
  | .notANumber p e => .notANumber p (e.rename f)
  | .notAList p e => .notAList p (e.rename f)
  | error => error

namespace EvalError

variable (f : FrameId → FrameId)

@[simp] theorem kind_rename (error : EvalError) : (error.rename f).kind = error.kind := by
  cases error <;> rfl

@[simp] theorem message_rename (error : EvalError) : (error.rename f).message = error.message := by
  cases error with
  | notCallable e | notAName e | notParameters e | tailNotList e | notArguments p e
  | notANumber p e | notAList p e =>
    rw [rename]
    delta message
    dsimp only
    rw [Expr.render_rename]
  | _ => rfl

@[simp] theorem printable_rename (error : EvalError) :
    (error.rename f).printable = error.printable := by
  cases error <;> simp [rename, printable, shown?]

variable {f} in
theorem rename_eq_self {error : EvalError} (h : error.shown? = none) : error.rename f = error := by
  cases error <;> first | rfl | cases h

theorem rename_id (error : EvalError) : error.rename id = error := by
  cases error <;> simp [rename, Expr.rename_id]

end EvalError

def Failure.rename (f : FrameId → FrameId) : Failure → Failure
  | .eval error => .eval (error.rename f)
  | failure => failure

namespace Failure

variable (f : FrameId → FrameId)

@[simp] theorem message_rename (failure : Failure) :
    (failure.rename f).message = failure.message := by
  cases failure with
  | eval error => exact error.message_rename f
  | _ => rfl

@[simp] theorem languageKind?_rename (failure : Failure) :
    (failure.rename f).languageKind? = failure.languageKind? := by
  cases failure with
  | eval error => simp [rename, languageKind?]
  | _ => rfl

theorem rename_id (failure : Failure) : failure.rename id = failure := by
  cases failure with
  | eval error => rw [rename, error.rename_id]
  | _ => rfl

theorem ofEvalError_rename (error : EvalError) :
    ofEvalError (error.rename f) = (ofEvalError error).rename f := by
  simp only [ofEvalError, EvalError.printable_rename]
  split <;> rfl

end Failure

-- A result with other values and errors in place of its own.
def relabel (onError : ε → ε) (onValue : α → β) : Except ε α → Except ε β
  | .ok a => .ok (onValue a)
  | .error error => .error (onError error)

theorem relabel_bind {onError : ε → ε} {onValue : α → α'} {onResult : β → β'} {x : Except ε α}
    {g : α → Except ε β} {g' : α' → Except ε β'}
    (h : ∀ a, g' (onValue a) = relabel onError onResult (g a)) :
    relabel onError onValue x >>= g' = relabel onError onResult (x >>= g) := by
  cases x with
  | error error => rfl
  | ok a => exact h a

theorem mapM_relabel {onError : ε → ε} {onItem : α → α'} {onResult : β → β'} {g : α → Except ε β}
    {g' : α' → Except ε β'} (h : ∀ a, g' (onItem a) = relabel onError onResult (g a))
    (items : List α) :
    (items.map onItem).mapM g' = relabel onError (List.map onResult) (items.mapM g) := by
  induction items with
  | nil => rfl
  | cons item items ih =>
    rw [List.map_cons, List.mapM_cons, List.mapM_cons, h item, ih]
    exact relabel_bind fun b => relabel_bind fun bs => rfl

theorem relabel_id (result : Except Failure Expr) :
    relabel (Failure.rename id) (Expr.rename id) result = result := by
  cases result with
  | ok value => rw [relabel, value.rename_id]
  | error failure => rw [relabel, failure.rename_id]

-- None of the errors shows an expression.
def Quiet (result : Except EvalError α) : Prop :=
  ∀ error, result = .error error → error.shown? = none

theorem Quiet.bind {x : Except EvalError α} {g : α → Except EvalError β} (h : Quiet x)
    (hg : ∀ a, Quiet (g a)) : Quiet (x >>= g) := FailsOnly.bind h hg

theorem Quiet.bind_relabel {f : FrameId → FrameId} {onResult : β → β'} {x : Except EvalError α}
    {g : α → Except EvalError β} {g' : α → Except EvalError β'} (h : Quiet x)
    (hg : ∀ a, g' a = relabel (EvalError.rename f) onResult (g a)) :
    x >>= g' = relabel (EvalError.rename f) onResult (x >>= g) := by
  cases x with
  | error error => exact congrArg Except.error (EvalError.rename_eq_self (h error rfl)).symm
  | ok a => exact hg a

namespace Primitive

variable (f : FrameId → FrameId) (p : Primitive)

theorem numbers_rename (args : Expr) :
    numbers p (args.rename f) = relabel (EvalError.rename f) id (numbers p args) := by
  cases args with
  | list items =>
    cases items with
    | nil => rfl
    | cons item items =>
      rw [Expr.rename_list, ← List.map_id_fun]
      refine mapM_relabel (fun item => ?_) (item :: items)
      cases item <;> simp [relabel, EvalError.rename]
  | _ => simp [numbers, relabel, EvalError.rename]

theorem quiet_widenAll (numbers : List Number) : Quiet (widenAll p numbers) := by
  intro error h
  unfold widenAll at h
  split at h <;> cases h
  rfl

theorem quiet_combine (x y : Binary64) : Quiet (combine p x y) := by
  intro error h
  unfold combine at h
  split at h <;> try cases h
  dsimp only at h
  split at h <;> cases h
  rfl

theorem quiet_foldlM (head : Binary64) (tail : List Binary64) :
    Quiet (tail.foldlM (combine p) head) := FailsOnly.foldlM (quiet_combine p) tail head

theorem quiet_fold (numbers : List Number) : Quiet (fold p numbers) := by
  unfold fold
  split
  · exact fun _ h => by cases h
  · split
    · exact fun _ h => by cases h
    · refine (quiet_widenAll p _).bind fun values => ?_
      split
      · exact (quiet_foldlM p _ _).bind fun _ _ h => by cases h
      · intro error h
        cases h
        rfl

theorem arithmetic_rename (args : Expr) :
    arithmetic p (args.rename f) =
      relabel (EvalError.rename f) (Expr.rename f) (arithmetic p args) := by
  by_cases h : ∃ n, args = .number n
  · obtain ⟨n, rfl⟩ := h
    rfl
  · have harithmetic : ∀ e : Expr, (¬∃ n, e = .number n) →
        arithmetic p e = (do return .number (← fold p (← numbers p e))) := by
      intro e he
      cases e <;> first | rfl | exact absurd ⟨_, rfl⟩ he
    have hrenamed : ¬∃ n, args.rename f = .number n := by
      cases args <;> simp_all
    rw [harithmetic _ h, harithmetic _ hrenamed, numbers_rename]
    exact relabel_bind fun ns => (quiet_fold p ns).bind_relabel fun n => rfl

theorem chain_rename (holds : Binary64 → Binary64 → Bool) (args : Expr) :
    chain p holds (args.rename f) =
      relabel (EvalError.rename f) (Expr.rename f) (chain p holds args) := by
  unfold chain
  rw [numbers_rename]
  exact relabel_bind fun ns => (quiet_widenAll p ns).bind_relabel fun values => rfl

theorem equal_rename (args : Expr) :
    equal (args.rename f) = relabel (EvalError.rename f) (Expr.rename f) (equal args) := by
  have hchain := chain_rename f .eq Binary64.eq args
  cases args with
  | symbol name => rfl
  | list items =>
    rcases items with _ | ⟨item, rest⟩
    · exact hchain
    · cases item with
      | symbol name => cases rest <;> rfl
      | _ => exact hchain
  | _ => exact hchain

theorem singleList_rename (args : Expr) :
    singleList p (args.rename f) =
      relabel (EvalError.rename f) (List.map (Expr.rename f)) (singleList p args) := by
  cases args with
  | list items =>
    rcases items with _ | ⟨item, _ | ⟨next, rest⟩⟩
    · rfl
    · cases item <;> simp [singleList, relabel, EvalError.rename]
    · simp [singleList, relabel, EvalError.rename]
  | _ => rfl

theorem firstItem_rename (args : Expr) :
    firstItem (args.rename f) =
      relabel (EvalError.rename f) (Expr.rename f) (firstItem args) := by
  unfold firstItem
  rw [singleList_rename]
  refine relabel_bind fun items => ?_
  cases items <;> rfl

theorem restItems_rename (args : Expr) :
    restItems (args.rename f) =
      relabel (EvalError.rename f) (Expr.rename f) (restItems args) := by
  unfold restItems
  rw [singleList_rename]
  refine relabel_bind fun items => ?_
  cases items with
  | nil => rfl
  | cons item items => exact congrArg Except.ok (Expr.rename_list f items).symm

-- A primitive does not look into closures.
theorem apply_rename (args : Expr) :
    p.apply (args.rename f) = relabel (EvalError.rename f) (Expr.rename f) (p.apply args) := by
  cases p with
  | add | sub | mul | div => exact arithmetic_rename f _ args
  | gt | ge | lt | le => exact chain_rename f _ _ args
  | eq => exact equal_rename f args
  | first => exact firstItem_rename f args
  | rest => exact restItems_rename f args
  | arguments name => rfl

end Primitive

end Lisplet
