import Lisplet.Proofs.Bare.Basic
import Lisplet.Proofs.Primitive.Basic
namespace Lisplet

-- The integers in the text of an expression.
inductive Expr.Shows : Expr → Int → Prop
  | number (n : Int) : Shows (.number (.int n)) n
  | item (items : List Expr) (item : Expr) (n : Int) (hmem : item ∈ items) (h : Shows item n) :
      Shows (.list items) n
  | body (params : List String) (body : Expr) (scope : FrameId) (n : Int) (h : Shows body n) :
      Shows (.closure params body scope) n

namespace Bare

mutual

-- An expression has its canonical text unless it shows an integer without one.
theorem text_cases (e : Expr) :
    (text e = .ok e.render ∧ e.printable) ∨
      ∃ n, text e = fail (.noText n) ∧ e.Shows n ∧ (Number.int n).printable = false := by
  match e with
  | .number (.int n) =>
    cases h : (Number.int n).printable with
    | true => exact .inl ⟨if_pos h, h⟩
    | false => exact .inr ⟨n, if_neg (by simp [h]), .number n, h⟩
  | .closure params body scope =>
    rcases text_cases body with ⟨htext, hprintable⟩ | ⟨n, htext, hn, hlong⟩
    · exact .inl ⟨by rw [text, htext]; rfl, hprintable⟩
    · exact .inr ⟨n, by rw [text, htext]; rfl, .body params body scope n hn, hlong⟩
  | .list items =>
    rcases texts_cases items with ⟨htext, hprintable⟩ | ⟨n, item, htext, hmem, hn, hlong⟩
    · exact .inl ⟨by rw [text, htext]; rfl, hprintable⟩
    · exact .inr ⟨n, by rw [text, htext]; rfl, .item items item n hmem hn, hlong⟩
  | .symbol name => exact .inl ⟨rfl, rfl⟩
  | .number (.float x) => exact .inl ⟨rfl, rfl⟩
  | .bool b => exact .inl ⟨rfl, rfl⟩
  | .str content => exact .inl ⟨rfl, rfl⟩
  | .builtin p => exact .inl ⟨rfl, rfl⟩

theorem texts_cases (items : List Expr) :
    (texts items = .ok (Expr.renderItems items) ∧ Expr.printableItems items) ∨
      ∃ n, ∃ item, texts items = fail (.noText n) ∧ item ∈ items ∧ item.Shows n ∧
        (Number.int n).printable = false := by
  match items with
  | [] => exact .inl ⟨rfl, rfl⟩
  | [item] =>
    rcases text_cases item with ⟨htext, hprintable⟩ | ⟨n, htext, hn, hlong⟩
    · exact .inl ⟨htext, by rw [Expr.printableItems, hprintable]; rfl⟩
    · exact .inr ⟨n, item, htext, List.mem_singleton_self item, hn, hlong⟩
  | item :: next :: rest =>
    have hstep : texts (item :: next :: rest) =
        (do return (← text item) ++ " " ++ (← texts (next :: rest))) := rfl
    rcases text_cases item with ⟨htext, hprintable⟩ | ⟨n, htext, hn, hlong⟩
    · rcases texts_cases (next :: rest) with ⟨htexts, hall⟩ | ⟨n, other, htexts, hmem, hn, hlong⟩
      · refine .inl ⟨by rw [hstep, htext, htexts]; rfl, ?_⟩
        rw [Expr.printableItems, hprintable, hall]
        rfl
      · exact .inr ⟨n, other, by rw [hstep, htext, htexts]; rfl, List.mem_cons_of_mem _ hmem, hn,
          hlong⟩
    · exact .inr ⟨n, item, by rw [hstep, htext]; rfl, List.mem_cons_self, hn, hlong⟩

end

theorem inserted?_eq (error : EvalError) : inserted? error = error.shown? := by cases error <;> rfl

-- What comes of raising an error: the error itself, or an integer without text in its message.
theorem signal_cases (error : EvalError) :
    (signal error = .error error ∧ error.printable) ∨
      ∃ shown n, signal error = .accident (.noText n) ∧ inserted? error = some shown ∧
        shown.Shows n ∧ (Number.int n).printable = false := by
  cases hinserted : inserted? error with
  | none =>
    have hshown : error.shown? = none := (inserted?_eq error).symm.trans hinserted
    exact .inl ⟨by rw [signal, hinserted], by rw [EvalError.printable, hshown]⟩
  | some shown =>
    have hshown : error.shown? = some shown := (inserted?_eq error).symm.trans hinserted
    rcases text_cases shown with ⟨htext, hprintable⟩ | ⟨n, htext, hn, hlong⟩
    · have hprintable' : error.printable := by
        rw [EvalError.printable, hshown]
        exact hprintable
      exact .inl ⟨by simp only [signal, hinserted, htext], hprintable'⟩
    · exact .inr ⟨shown, n, by simp only [signal, hinserted, htext]; rfl, rfl, hn, hlong⟩

theorem mapError_bind (report : EvalError → Raised) (result : Except EvalError α)
    (f : α → Except EvalError β) :
    (result >>= f).mapError report = result.mapError report >>= fun a => (f a).mapError report := by
  cases result <;> rfl

section

variable (p : Primitive)

theorem check_cases (items : List Expr) :
    let check := items.forM fun arg => require (isNumber arg) (.notANumber p arg)
    (∃ ns, items = ns.map .number ∧ check = .ok () ∧ items.mapM (Primitive.asNumber p) = .ok ns) ∨
      ∃ e, check = raise (.notANumber p e) ∧
        items.mapM (Primitive.asNumber p) = .error (.notANumber p e) := by
  induction items with
  | nil => exact .inl ⟨[], rfl, rfl, rfl⟩
  | cons item items ih =>
    rw [List.mapM_cons]
    cases item with
    | number n =>
      rcases ih with ⟨ns, rfl, hcheck, hmapM⟩ | ⟨e, hcheck, hmapM⟩
      · exact .inl ⟨n :: ns, rfl, hcheck, by rw [hmapM]; rfl⟩
      · exact .inr ⟨e, hcheck, by rw [hmapM]; rfl⟩
    | _ => exact .inr ⟨_, rfl, rfl⟩

-- Operands that are numbers, or else an error that has nothing to do with division.
theorem numbers_cases (args : Expr) :
    (∃ n ns, Primitive.numbers p args = .ok (n :: ns) ∧
        numbers p args = .ok ((n :: ns).map .number)) ∨
      ∃ error, Primitive.numbers p args = .error error ∧ numbers p args = raise error ∧
        ∀ q, error ≠ .divisionByZero q := by
  cases args with
  | list items =>
    cases items with
    | nil => exact .inr ⟨_, rfl, rfl, fun q h => by cases h⟩
    | cons item items =>
      have hmodel := Primitive.numbers_cons p item items
      have hbare : numbers p (.list (item :: items)) =
          (item :: items).forM (fun arg => require (isNumber arg) (.notANumber p arg)) >>=
            fun _ => itemsOf (.list (item :: items)) := rfl
      rcases check_cases p (item :: items) with ⟨ns, hns, hcheck, hmapM⟩ | ⟨e, hcheck, hmapM⟩
      · cases ns with
        | nil => cases hns
        | cons n ns =>
          refine .inl ⟨n, ns, hmodel.trans hmapM, ?_⟩
          rw [hbare, hcheck, hns]
          rfl
      · refine .inr ⟨_, hmodel.trans hmapM, ?_, fun q h => by cases h⟩
        rw [hbare, hcheck]
        rfl
  | _ => exact .inr ⟨_, rfl, rfl, fun q h => by cases h⟩

theorem mapM_widen (ns : List Number) :
    (ns.map .number).mapM widen = match ns.mapM Number.widen? with
      | some values => .ok values
      | none => fail (.access .tooLargeToWiden) := by
  induction ns with
  | nil => rfl
  | cons n ns ih =>
    have hwiden : widen (.number n) = access n.widen := rfl
    rw [List.map_cons, List.mapM_cons, List.mapM_cons, hwiden, ih, Number.widen]
    cases n.widen? with
    | none => rfl
    | some x => cases ns.mapM Number.widen? <;> rfl

theorem floats_numbers (ns : List Number) :
    floats p (ns.map .number) = (Primitive.widenAll p ns).mapError signal := by
  rw [floats, mapM_widen, Primitive.widenAll]
  cases ns.mapM Number.widen? <;> rfl

theorem all_zip_tail (holds : Binary64 → Binary64 → Bool) (values : List Binary64) :
    ((values.zip values.tail).all fun (x, y) => holds x y) = Primitive.adjacent holds values := by
  induction values with
  | nil => rfl
  | cons x values ih =>
    cases values with
    | nil => rfl
    | cons y values => exact congrArg (holds x y && ·) ih

-- Errors are signalled, but those of division may be reported in another way.
def Reports (report : EvalError → Raised) : Prop :=
  ∀ error, (∀ q, error ≠ .divisionByZero q) → report error = signal error

theorem reports_signal : Reports signal := fun _ _ => rfl

variable {report : EvalError → Raised}

theorem numbers_bind {f : List Expr → Raises α} {g : List Number → Except EvalError α}
    (hreport : Reports report)
    (h : ∀ n ns, f ((n :: ns).map .number) = (g (n :: ns)).mapError report) (args : Expr) :
    (numbers p args >>= f) = (Primitive.numbers p args >>= g).mapError report := by
  rcases numbers_cases p args with ⟨n, ns, hmodel, hbare⟩ | ⟨error, hmodel, hbare, herror⟩
  · rw [hmodel, hbare]
    exact h n ns
  · rw [hmodel, hbare]
    exact congrArg Except.error (hreport error herror).symm

theorem chain_eq (holds : Binary64 → Binary64 → Bool) (args : Expr) :
    chain p holds args = (Primitive.chain p holds args).mapError signal := by
  refine numbers_bind p reports_signal (fun n ns => ?_) args
  rw [floats_numbers, mapError_bind]
  refine bind_congr fun values => ?_
  rw [all_zip_tail]
  rfl

theorem equal_eq (args : Expr) : equal args = (Primitive.equal args).mapError signal := by
  have hchain := chain_eq .eq Binary64.eq args
  cases args with
  | symbol name => rfl
  | list items =>
    rcases items with _ | ⟨item, _ | ⟨next, rest⟩⟩
    · exact hchain
    · cases item with
      | symbol name => rfl
      | _ => exact hchain
    · have hequal : Primitive.equal (.list (item :: next :: rest)) =
          Primitive.chain .eq Binary64.eq (.list (item :: next :: rest)) := by
        cases item <;> rfl
      rw [hequal, ← hchain]
      rfl
  | _ => exact hchain

theorem singleList_eq (args : Expr) :
    singleList p args = ((Primitive.singleList p args).map Expr.list).mapError signal := by
  cases args with
  | list items =>
    rcases items with _ | ⟨item, _ | ⟨next, rest⟩⟩
    · rfl
    · cases item <;> rfl
    · have hmodel : Primitive.singleList p (.list (item :: next :: rest)) =
          .error (.notOneArgument p) := by
        cases item <;> rfl
      rw [hmodel]
      rfl
  | _ => rfl

theorem foldlM_eq {combine : Number → Number → Raises Number}
    (h : ∀ x y, combine (.float x) (.float y) =
      ((Primitive.combine p x y).map Number.float).mapError report) (values : List Binary64)
    (x : Binary64) :
    (values.map .float).foldlM combine (.float x) =
      ((values.foldlM (Primitive.combine p) x).map Number.float).mapError report := by
  induction values generalizing x with
  | nil => rfl
  | cons y values ih =>
    rw [List.map_cons, List.foldlM_cons, List.foldlM_cons, h]
    cases Primitive.combine p x y with
    | ok z => exact ih z
    | error error => rfl

theorem foldlM_ints {combine : Number → Number → Raises Number} {exact : Int → Int → Int}
    (h : ∀ a b, combine (.int a) (.int b) = .ok (.int (exact a b))) (values : List Int) (a : Int) :
    (values.map .int).foldlM combine (.int a) = .ok (.int (values.foldl exact a)) := by
  induction values generalizing a with
  | nil => rfl
  | cons b values ih =>
    rw [List.map_cons, List.foldlM_cons, h]
    exact ih (exact a b)

theorem anyM_isFloat (ns : List Number) :
    (ns.map .number).anyM isFloat = .ok (ns.any Number.isFloat) := by
  induction ns with
  | nil => rfl
  | cons n ns ih =>
    have hn : isFloat (.number n) = .ok n.isFloat := rfl
    rw [List.map_cons, List.anyM, hn, List.any_cons, ih]
    cases n.isFloat <;> rfl

theorem mapM_numberOf (ns : List Number) : (ns.map .number).mapM numberOf = .ok ns := by
  calc (ns.map Expr.number).mapM numberOf
    _ = ns.mapM fun n => (pure n : Raises Number) := List.mapM_map
    _ = .ok (ns.map fun n => n) := List.mapM_pure
    _ = .ok ns := by rw [List.map_id']

theorem widenAll_cases (n : Number) (ns : List Number) :
    (∃ x values, Primitive.widenAll p (n :: ns) = .ok (x :: values)) ∨
      Primitive.widenAll p (n :: ns) = .error (.tooLargeToWiden p) := by
  rw [Primitive.widenAll]
  rcases Number.mapM_widen?_cases (n :: ns) with ⟨-, hmapM⟩ | ⟨-, hmapM⟩
  · exact .inl ⟨_, _, by rw [hmapM]; rfl⟩
  · exact .inr (by rw [hmapM])

theorem any_isFloat_ints (values : List Int) :
    (values.map Number.int).any Number.isFloat = false := by
  simp [Number.isFloat]

-- Doubles are made of the operands first, and there are as many of them.
theorem reduce_floats {combine : Number → Number → Raises Number}
    (hreport : Reports report)
    (h : ∀ x y, combine (.float x) (.float y) =
      ((Primitive.combine p x y).map Number.float).mapError report) (n : Number) (ns : List Number) :
    (floats p ((n :: ns).map .number) >>= fun values => reduce combine (values.map .float)) =
      (Primitive.foldWidened p (n :: ns)).mapError report := by
  rw [floats_numbers, Primitive.foldWidened]
  rcases widenAll_cases p n ns with ⟨x, values, hwiden⟩ | hwiden
  · rw [hwiden]
    refine (foldlM_eq p h values x).trans (congrArg (Except.mapError report) ?_)
    change Except.map Number.float _ = (do return .float (← values.foldlM (Primitive.combine p) x))
    cases values.foldlM (Primitive.combine p) x <;> rfl
  · rw [hwiden]
    have hsame := hreport (.tooLargeToWiden p) fun q hq => by cases hq
    exact congrArg Except.error hsame.symm

-- What numbers are combined to, with the accidents of the operation reported in this way.
theorem combined_eq {combine : Number → Number → Raises Number} (hreport : Reports report)
    (hexact : ∀ exact, Primitive.combineExact? p = some exact →
      ∀ a b, combine (.int a) (.int b) = .ok (.int (exact a b)))
    (hrounded : ∀ x y, combine (.float x) (.float y) =
      ((Primitive.combine p x y).map Number.float).mapError report) (n : Number) (ns : List Number) :
    combined p combine (Primitive.combineExact? p).isSome ((n :: ns).map .number) =
      (Expr.number <$> Primitive.fold p (n :: ns)).mapError report := by
  cases ns with
  | nil => rfl
  | cons next ns =>
    have hlength : ¬((n :: next :: ns).map Expr.number).length = 1 := by simp
    have htest : (pure (Primitive.combineExact? p).isSome <&&> do
        return !(← ((n :: next :: ns).map Expr.number).anyM isFloat) : Raises Bool) =
          .ok ((Primitive.combineExact? p).isSome && !(n :: next :: ns).any Number.isFloat) := by
      rw [anyM_isFloat]
      cases (Primitive.combineExact? p).isSome <;> rfl
    rw [combined, if_neg hlength, htest, mapM_numberOf]
    rcases Primitive.exactOperands?_cases p (n :: next :: ns) with
      ⟨exact, values, hsome, hvalues⟩ | ⟨hrounds, hnone⟩
    · cases values with
      | nil => cases hvalues
      | cons a values =>
        rw [hvalues, Primitive.fold_ints hsome, hsome, any_isFloat_ints]
        exact congrArg (Expr.number <$> ·) (foldlM_ints (hexact exact hsome) values a)
    · have hfold := reduce_floats p hreport hrounded n (next :: ns)
      have hmap : ∀ result : Except EvalError Number,
          (Expr.number <$> result).mapError report = Expr.number <$> result.mapError report := by
        intro result
        cases result <;> rfl
      rw [hrounds, Primitive.fold_of_exactOperands?_eq_none hnone, hmap, ← hfold, map_bind]
      rfl

theorem fold_eq {combine : Number → Number → Raises Number} (hreport : Reports report)
    (hexact : ∀ exact, Primitive.combineExact? p = some exact →
      ∀ a b, combine (.int a) (.int b) = .ok (.int (exact a b)))
    (hrounded : ∀ x y, combine (.float x) (.float y) =
      ((Primitive.combine p x y).map Number.float).mapError report) (args : Expr) :
    fold p combine (Primitive.combineExact? p).isSome args =
      (Primitive.arithmetic p args).mapError report := by
  have hnumbers : (numbers p args >>= combined p combine (Primitive.combineExact? p).isSome) =
      (Primitive.numbers p args >>= fun ns => Expr.number <$> Primitive.fold p ns).mapError report :=
    numbers_bind p hreport (combined_eq p hreport hexact hrounded) args
  cases args with
  | number n => rfl
  | _ => exact hnumbers

end

theorem item_zero (head : Expr) (tail : List Expr) : item (.list (head :: tail)) 0 = .ok head := by
  have hposition : Expr.position? (head :: tail).length 0 = some 0 := by simp [Expr.position?]
  have hnth : Expr.nth (head :: tail) 0 = .ok head := by
    rw [Expr.nth, Expr.nth?, hposition]
    rfl
  change access (Expr.nth (head :: tail) 0) = .ok head
  rw [hnth]
  rfl

-- Before it is handled, division by zero is an accident.
def dividing : EvalError → Raised
  | .divisionByZero .div => .accident .zeroDivisor
  | error => signal error

theorem dividing_eq {error : EvalError} (h : error ≠ .divisionByZero .div) :
    dividing error = signal error := by
  unfold dividing
  split
  · exact absurd rfl h
  · rfl

theorem quotient_floats (x y : Binary64) :
    quotient (.float x) (.float y) =
      ((Primitive.combine .div x y).map Number.float).mapError dividing := by
  unfold quotient Primitive.combine
  cases h : Binary64.div? x y with
  | none =>
    simp only [access, Number.widen, Number.widen?, pure_bind, h]
    rfl
  | some z =>
    simp only [access, Number.widen, Number.widen?, pure_bind, h]
    rfl

theorem divide_eq (args : Expr) :
    divide args = (Primitive.arithmetic .div args).mapError signal := by
  have hexact : ∀ exact, Primitive.combineExact? .div = some exact →
      ∀ a b, quotient (.int a) (.int b) = .ok (.int (exact a b)) := by
    intro exact h
    cases h
  have hfold : fold .div quotient false args =
      (Primitive.arithmetic .div args).mapError dividing :=
    fold_eq .div (fun _ herror => dividing_eq (herror .div)) hexact quotient_floats args
  rw [divide, hfold]
  rcases Primitive.arithmetic .div args with error | value
  · by_cases hzero : error = .divisionByZero .div
    · rw [hzero]
      rfl
    · have herror : ∀ report : EvalError → Raised,
          (Except.error error : Except EvalError Expr).mapError report = .error (report error) :=
        fun _ => rfl
      rw [herror, herror, dividing_eq hzero]
      rcases signal_cases error with ⟨hsignal, -⟩ | ⟨_, n, hsignal, -⟩
      · rw [hsignal]
        rfl
      · rw [hsignal]
        rfl
  · rfl

theorem act_eq (p : Primitive) (args : Expr) : act p args = (p.apply args).mapError signal := by
  have hfold : ∀ p combine rounded, Primitive.combineExact? p = some combine →
      (Primitive.combine p = fun x y => .ok (rounded x y)) →
      fold p (mixed combine rounded) true args = (Primitive.arithmetic p args).mapError signal := by
    intro p combine rounded hcombine hrounded
    have hsome : (Primitive.combineExact? p).isSome = true := by
      rw [hcombine]
      rfl
    rw [← hsome]
    refine fold_eq p reports_signal (fun exact h a b => ?_) (fun x y => ?_) args
    · rw [hcombine] at h
      cases h
      rfl
    · rw [hrounded]
      rfl
  cases p with
  | add => exact hfold .add _ _ rfl rfl
  | sub => exact hfold .sub _ _ rfl rfl
  | mul => exact hfold .mul _ _ rfl rfl
  | div => exact divide_eq args
  | gt => exact chain_eq .gt (fun x y => y.lt x) args
  | ge => exact chain_eq .ge (fun x y => y.le x) args
  | lt => exact chain_eq .lt Binary64.lt args
  | le => exact chain_eq .le Binary64.le args
  | eq => exact equal_eq args
  | first =>
    change (singleList .first args >>= first) = (Primitive.firstItem args).mapError signal
    rw [singleList_eq, Primitive.firstItem]
    rcases Primitive.singleList .first args with error | _ | ⟨head, tail⟩
    · rfl
    · rfl
    · exact item_zero head tail
  | rest =>
    change (singleList .rest args >>= rest) = (Primitive.restItems args).mapError signal
    rw [singleList_eq, Primitive.restItems]
    rcases Primitive.singleList .rest args with error | _ | ⟨head, tail⟩ <;> rfl
  | arguments name => rfl

end Bare
end Lisplet
