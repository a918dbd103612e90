import Lisplet.Builtin

namespace Lisplet

-- What can be said of the leaves of an expression.
structure Traits where
  name : String → Prop
  number : Number → Prop
  primitive : Primitive → Prop
  scope : FrameId → Prop

namespace Traits

-- Nothing is asked but something of scopes.
def ofScopes (scope : FrameId → Prop) : Traits :=
  ⟨fun _ => True, fun _ => True, fun _ => True, scope⟩

-- The same traits where so many scopes have been made.
def within (t : Traits) (size : Nat) : Traits := { t with scope := (· < size) }

-- Arithmetic does not lead out of the numbers.
def Closed (t : Traits) : Prop :=
  ∀ p (numbers : List Number) n, t.primitive p → (∀ x ∈ numbers, t.number x) →
    p.apply (.list (numbers.map .number)) = .ok (.number n) → t.number n

theorem closed_ofScopes (scope : FrameId → Prop) : (ofScopes scope).Closed :=
  fun _ _ _ _ _ _ => trivial

end Traits

-- All leaves have the traits, those in the bodies of closures included.
inductive Expr.Has (t : Traits) : Expr → Prop
  | symbol (name : String) (h : t.name name) : Has t (.symbol name)
  | number (n : Number) (h : t.number n) : Has t (.number n)
  | bool (b : Bool) : Has t (.bool b)
  | str (text : String) : Has t (.str text)
  | list (items : List Expr) (h : ∀ item ∈ items, Has t item) : Has t (.list items)
  | builtin (p : Primitive) (h : t.primitive p) : Has t (.builtin p)
  | closure (params : List String) (body : Expr) (scope : FrameId)
      (hparams : ∀ param ∈ params, t.name param) (hbody : Has t body) (hscope : t.scope scope) :
      Has t (.closure params body scope)

-- No scope can be captured, so no closure can be there.
def Expr.ClosureFree (e : Expr) : Prop := e.Has (.ofScopes fun _ => False)

namespace Expr

variable {t : Traits}

@[simp] theorem has_symbol_iff {name : String} : (Expr.symbol name).Has t ↔ t.name name :=
  ⟨fun h => by cases h with | symbol _ h => exact h, .symbol name⟩

@[simp] theorem has_number_iff {n : Number} : (Expr.number n).Has t ↔ t.number n :=
  ⟨fun h => by cases h with | number _ h => exact h, .number n⟩

@[simp] theorem has_bool (b : Bool) : (Expr.bool b).Has t := .bool b

@[simp] theorem has_str (text : String) : (Expr.str text).Has t := .str text

@[simp] theorem has_list_iff {items : List Expr} :
    (Expr.list items).Has t ↔ ∀ item ∈ items, item.Has t :=
  ⟨fun h => by cases h with | list _ h => exact h, .list items⟩

@[simp] theorem has_builtin_iff {p : Primitive} : (Expr.builtin p).Has t ↔ t.primitive p :=
  ⟨fun h => by cases h with | builtin _ h => exact h, .builtin p⟩

@[simp] theorem has_closure_iff {params : List String} {body : Expr} {scope : FrameId} :
    (Expr.closure params body scope).Has t ↔
      (∀ param ∈ params, t.name param) ∧ body.Has t ∧ t.scope scope :=
  ⟨fun h => by cases h with | closure _ _ _ hparams hbody hscope => exact ⟨hparams, hbody, hscope⟩,
    fun ⟨hparams, hbody, hscope⟩ => .closure params body scope hparams hbody hscope⟩

theorem Has.imp {t other : Traits} {e : Expr} (h : e.Has t)
    (hname : ∀ name, t.name name → other.name name) (hnumber : ∀ n, t.number n → other.number n)
    (hprimitive : ∀ p, t.primitive p → other.primitive p)
    (hscope : ∀ id, t.scope id → other.scope id) : e.Has other := by
  induction h with
  | symbol name h => exact .symbol name (hname name h)
  | number n h => exact .number n (hnumber n h)
  | bool b => exact .bool b
  | str text => exact .str text
  | list items _ ih => exact .list items ih
  | builtin p h => exact .builtin p (hprimitive p h)
  | closure params body id hparams _ hid ih =>
    have hparams' : ∀ param ∈ params, other.name param :=
      fun param hparam => hname param (hparams param hparam)
    exact .closure params body id hparams' ih (hscope id hid)

theorem Has.mono {t : Traits} {scope : FrameId → Prop} {e : Expr} (h : e.Has t)
    (hscope : ∀ id, t.scope id → scope id) : e.Has { t with scope := scope } :=
  h.imp (fun _ h => h) (fun _ h => h) (fun _ h => h) hscope

theorem Has.within_mono {t : Traits} {size later : Nat} {e : Expr} (h : e.Has (t.within size))
    (hle : size ≤ later) : e.Has (t.within later) :=
  h.mono fun _ hid => Nat.lt_of_lt_of_le hid hle

-- What is said of leaves and what is said of scopes go together.
theorem Has.within {t : Traits} {size : Nat} {e : Expr} (h : e.Has t)
    (hscopes : e.Has (.ofScopes (· < size))) : e.Has (t.within size) := by
  induction h with
  | symbol name h => exact .symbol name h
  | number n h => exact .number n h
  | bool b => exact .bool b
  | str text => exact .str text
  | list items _ ih =>
    exact .list items fun item hitem => ih item hitem (has_list_iff.mp hscopes item hitem)
  | builtin p h => exact .builtin p h
  | closure params body id hparams _ _ ih =>
    obtain ⟨-, hbody, hid⟩ := has_closure_iff.mp hscopes
    exact .closure params body id hparams (ih hbody) hid

theorem ClosureFree.has_within {scope : FrameId → Prop} {e : Expr} (h : e.ClosureFree)
    (size : Nat) : e.Has ((Traits.ofScopes scope).within size) :=
  h.mono fun _ hid => hid.elim

end Expr

def Traits.Value (t : Traits) (size : Nat) (value : Expr) : Prop := value.Has (t.within size)

-- Expressions of which each has the traits.
def Traits.Values (t : Traits) (size : Nat) (values : List Expr) : Prop :=
  ∀ value ∈ values, value.Has (t.within size)

theorem Traits.Values.mono {t : Traits} {size later : Nat} {values : List Expr}
    (h : t.Values size values) (hle : size ≤ later) : t.Values later values :=
  fun value hvalue => (h value hvalue).within_mono hle

theorem Traits.Values.cons {t : Traits} {size : Nat} {value : Expr} {values : List Expr}
    (h : t.Value size value) (hvalues : t.Values size values) : t.Values size (value :: values) :=
  List.forall_mem_cons.mpr ⟨h, hvalues⟩

theorem Traits.Values.tail {t : Traits} {size : Nat} {value : Expr} {values : List Expr}
    (h : t.Values size (value :: values)) : t.Values size values :=
  (List.forall_mem_cons.mp h).2

theorem Traits.Values.append {t : Traits} {size : Nat} {values others : List Expr}
    (h : t.Values size values) (hothers : t.Values size others) :
    t.Values size (values ++ others) :=
  List.forall_mem_append.mpr ⟨h, hothers⟩

theorem exists_of_bind_eq_ok {ε α β : Type} {x : Except ε α} {f : α → Except ε β} {b : β}
    (h : (x >>= f) = .ok b) : ∃ a, x = .ok a ∧ f a = .ok b := by
  cases x with
  | error error => cases h
  | ok a => exact ⟨a, rfl, h⟩

namespace Primitive

theorem mapM_number_spec {p : Primitive} {items : List Expr} {ns : List Number}
    (h : (items.mapM fun item => match item with
      | .number n => .ok n
      | e => .error (.notANumber p e) : Except EvalError (List Number)) = .ok ns) :
    items = ns.map .number := by
  induction items generalizing ns with
  | nil =>
    cases h
    rfl
  | cons item items ih =>
    rw [List.mapM_cons] at h
    obtain ⟨n, hn, h⟩ := exists_of_bind_eq_ok h
    obtain ⟨rest, hrest, h⟩ := exists_of_bind_eq_ok h
    cases h
    rw [ih hrest]
    cases item <;> cases hn
    rfl

theorem numbers_spec {p : Primitive} {args : Expr} {ns : List Number}
    (h : numbers p args = .ok ns) : args = .list (ns.map .number) := by
  unfold numbers at h
  split at h
  · cases h
  · rw [mapM_number_spec h]
  · cases h

theorem arithmetic_spec {p : Primitive} {args value : Expr} (h : arithmetic p args = .ok value) :
    args = value ∨
      ∃ ns n, args = .list (ns.map .number) ∧ fold p ns = .ok n ∧ value = .number n := by
  unfold arithmetic at h
  split at h
  · cases h
    exact .inl rfl
  · obtain ⟨ns, hns, h⟩ := exists_of_bind_eq_ok h
    obtain ⟨n, hn, h⟩ := exists_of_bind_eq_ok h
    cases h
    exact .inr ⟨ns, n, numbers_spec hns, hn, rfl⟩

theorem arithmetic_has {t : Traits} (ht : t.Closed) {p : Primitive} (hp : t.primitive p)
    (happly : p.apply = arithmetic p) {args value : Expr} (hargs : args.Has t)
    (h : arithmetic p args = .ok value) : value.Has t := by
  rcases arithmetic_spec h with rfl | ⟨ns, n, rfl, -, rfl⟩
  · exact hargs
  · have hns : ∀ x ∈ ns, t.number x := fun x hx =>
      Expr.has_number_iff.mp (Expr.has_list_iff.mp hargs (.number x) (List.mem_map_of_mem hx))
    exact .number n (ht p ns n hp hns (happly ▸ h))

theorem chain_has {t : Traits} {p : Primitive} {holds : Binary64 → Binary64 → Bool}
    {args value : Expr} (h : chain p holds args = .ok value) : value.Has t := by
  obtain ⟨ns, -, h⟩ := exists_of_bind_eq_ok h
  obtain ⟨xs, -, h⟩ := exists_of_bind_eq_ok h
  cases h
  exact .bool _

theorem equal_has {t : Traits} {args value : Expr} (h : equal args = .ok value) : value.Has t := by
  unfold equal at h
  split at h
  · cases h
    exact .bool true
  · cases h
    exact .bool true
  · exact chain_has h

theorem singleList_spec {p : Primitive} {args : Expr} {items : List Expr}
    (h : singleList p args = .ok items) : args = .list [.list items] := by
  unfold singleList at h
  split at h <;> cases h
  rfl

theorem firstItem_has {t : Traits} {args value : Expr} (hargs : args.Has t)
    (h : firstItem args = .ok value) : value.Has t := by
  obtain ⟨items, hitems, h⟩ := exists_of_bind_eq_ok h
  rw [singleList_spec hitems] at hargs
  split at h
  · cases h
    exact Expr.has_list_iff.mp (Expr.has_list_iff.mp hargs _ List.mem_cons_self) _
      List.mem_cons_self
  · cases h

theorem restItems_has {t : Traits} {args value : Expr} (hargs : args.Has t)
    (h : restItems args = .ok value) : value.Has t := by
  obtain ⟨items, hitems, h⟩ := exists_of_bind_eq_ok h
  rw [singleList_spec hitems] at hargs
  split at h
  · cases h
    exact .list _ fun item hitem => Expr.has_list_iff.mp
      (Expr.has_list_iff.mp hargs _ List.mem_cons_self) item (List.mem_cons_of_mem _ hitem)
  · cases h

-- A primitive makes no closures, and its result is put together from its arguments.
theorem apply_has {t : Traits} (ht : t.Closed) {p : Primitive} (hp : t.primitive p)
    {args value : Expr} (hargs : args.Has t) (h : p.apply args = .ok value) : value.Has t := by
  cases p with
  | add | sub | mul | div => exact arithmetic_has ht hp rfl hargs h
  | gt | ge | lt | le => exact chain_has h
  | eq => exact equal_has h
  | first => exact firstItem_has hargs h
  | rest => exact restItems_has hargs h
  | arguments name =>
    cases h
    exact hargs

end Primitive

end Lisplet
