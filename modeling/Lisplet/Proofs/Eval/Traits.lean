import Lisplet.Proofs.Eval.Request
import Lisplet.Proofs.Expr.Traits

namespace Lisplet

def Request.Has (t : Traits) : Request → Prop
  | lookup scope name => t.scope scope ∧ t.name name
  | define scope name value => t.scope scope ∧ t.name name ∧ value.Has t
  | evaluate scope e => t.scope scope ∧ e.Has t
  | call params body scope args => (Expr.closure params body scope).Has t ∧ ∀ arg ∈ args, arg.Has t

namespace Plan

-- What the plan asks for has the traits as long as the answers have them. The store may grow before
-- each answer, and with it what scopes there are.
def Has (t : Traits) (result : Nat → α → Prop) : Nat → Plan α → Prop
  | size, done a => result size a
  | _, fail _ => True
  | size, ask request next => request.Has (t.within size) ∧
    ∀ later ≥ size, ∀ answer, answer.Has (t.within later) → (next answer).Has t result later

variable {t : Traits} {size : Nat}

theorem has_bind {result : Nat → α → Prop} {final : Nat → β → Prop} {plan : Plan α}
    {f : α → Plan β} (h : plan.Has t result size)
    (hf : ∀ later ≥ size, ∀ a, result later a → (f a).Has t final later) :
    (plan >>= f).Has t final size := by
  induction plan generalizing size with
  | done a => exact hf size (Nat.le_refl size) a h
  | fail error => trivial
  | ask request next ih =>
    exact ⟨h.1, fun later hlater answer hanswer => ih answer (h.2 later hlater answer hanswer)
      fun last hlast a ha => hf last (Nat.le_trans hlater hlast) a ha⟩

end Plan

variable {t : Traits} {size : Nat} {scope : FrameId}

theorem evaluate_has {e : Expr} (hscope : scope < size) (h : t.Value size e) :
    (Plan.evaluate scope e).Has t t.Value size :=
  ⟨⟨hscope, h⟩, fun _ _ _ hanswer => hanswer⟩

theorem Template.fill_has (t : Traits) (scope : FrameId) :
    (∀ level template size, scope < size → t.Value size template →
      (fill scope level template).Has t t.Value size) ∧
      ∀ level items size, scope < size → t.Values size items →
        (fillItems scope level items).Has t t.Values size := by
  refine fill_induct scope
    (fun e plan => ∀ size, scope < size → t.Value size e → plan.Has t t.Value size)
    (fun items plan => ∀ size, scope < size → t.Values size items → plan.Has t t.Values size)
    ?keep ?fail ?hole ?nested ?list ?nil ?splice ?cons
  case keep => exact fun e size _ h => h
  case fail => exact fun e size _ _ => trivial
  case hole =>
    intro name body size hscope h
    exact evaluate_has hscope (Expr.has_list_iff.mp h body (by simp))
  case nested =>
    intro name body plan ih size hscope h
    have hitems : t.Values size [.symbol name, body] := Expr.has_list_iff.mp h
    refine Plan.has_bind (ih size hscope (hitems body (by simp)))
      fun later hlater value hvalue => ?_
    have hname : t.Value later (.symbol name) := hitems.mono hlater _ List.mem_cons_self
    have hboth : t.Values later [.symbol name, value] :=
      .cons hname (.cons hvalue (by simp [Traits.Values]))
    exact .list _ hboth
  case list =>
    intro es plan ih size hscope h
    exact Plan.has_bind (ih size hscope (Expr.has_list_iff.mp h)) fun _ _ values hvalues =>
      .list values hvalues
  case nil => exact fun size _ h => h
  case splice =>
    intro name body rest plan ih size hscope h
    have hbody : t.Value size body := Expr.has_list_iff.mp (h _ List.mem_cons_self) body (by simp)
    refine Plan.has_bind (evaluate_has hscope hbody) fun later hlater value hvalue => ?_
    cases value with
    | list values =>
      have hrest : t.Values later rest := Traits.Values.mono h.tail hlater
      refine Plan.has_bind (ih later (Nat.lt_of_lt_of_le hscope hlater) hrest)
        fun last hlast others hothers => ?_
      exact .append (Traits.Values.mono (Expr.has_list_iff.mp hvalue) hlast) hothers
    | _ => trivial
  case cons =>
    intro e rest plan plans ih ihrest size hscope h
    refine Plan.has_bind (ih size hscope (h e List.mem_cons_self))
      fun later hlater value hvalue => ?_
    have hrest : t.Values later rest := Traits.Values.mono h.tail hlater
    refine Plan.has_bind (ihrest later (Nat.lt_of_lt_of_le hscope hlater) hrest)
      fun last hlast values hvalues => ?_
    exact .cons (hvalue.within_mono hlast) hvalues

namespace Eval

theorem evaluateAll_has {items : List Expr} (hscope : scope < size) (h : t.Values size items) :
    (evaluateAll scope items).Has t t.Values size := by
  induction items generalizing size with
  | nil => exact h
  | cons e rest ih =>
    refine Plan.has_bind (evaluate_has hscope (h e List.mem_cons_self))
      fun later hlater value hvalue => ?_
    refine Plan.has_bind (ih (Nat.lt_of_lt_of_le hscope hlater) (h.tail.mono hlater))
      fun last hlast values hvalues => ?_
    exact .cons (hvalue.within_mono hlast) hvalues

theorem evaluateInOrder_has {e : Expr} {rest : List Expr} (hscope : scope < size)
    (h : t.Values size (e :: rest)) : (evaluateInOrder scope e rest).Has t t.Value size := by
  induction rest generalizing e size with
  | nil => exact evaluate_has hscope (h e List.mem_cons_self)
  | cons next rest ih =>
    refine Plan.has_bind (evaluate_has hscope (h e List.mem_cons_self)) fun later hlater _ _ => ?_
    exact ih (Nat.lt_of_lt_of_le hscope hlater) (h.tail.mono hlater)

theorem application_has (ht : t.Closed) {procedure : Expr} {args : List Expr}
    (hprocedure : t.Value size procedure) (hargs : t.Values size args) :
    (application procedure args).Has t t.Value size := by
  cases procedure with
  | builtin p =>
    simp only [application]
    cases happly : p.apply (.list args) with
    | error error => trivial
    | ok value =>
      exact Primitive.apply_has (t := t.within size) ht
        ((Expr.has_builtin_iff (t := t.within size)).mp hprocedure) (.list args hargs) happly
  | closure params body captured => exact ⟨⟨hprocedure, hargs⟩, fun _ _ _ hanswer => hanswer⟩
  | _ => trivial

theorem combination_has (ht : t.Closed) {operator : Expr} {operands : List Expr}
    (hscope : scope < size) (h : t.Values size (operator :: operands)) :
    (combination scope operator operands).Has t t.Value size := by
  refine Plan.has_bind (evaluate_has hscope (h operator List.mem_cons_self))
    fun later hlater procedure hprocedure => ?_
  refine Plan.has_bind
    (evaluateAll_has (Nat.lt_of_lt_of_le hscope hlater) (h.tail.mono hlater))
    fun last hlast args hargs => ?_
  exact application_has ht (hprocedure.within_mono hlast) hargs

theorem branch_has {operands : List Expr} (hscope : scope < size) (h : t.Values size operands) :
    (branch scope operands).Has t t.Value size := by
  unfold branch
  split
  · next condition consequent alternative =>
    refine Plan.has_bind (evaluate_has hscope (h condition (by simp)))
      fun later hlater value _ => ?_
    have hlast := Nat.lt_of_lt_of_le hscope hlater
    split
    · exact evaluate_has hlast ((h alternative (by simp)).within_mono hlater)
    · exact evaluate_has hlast ((h consequent (by simp)).within_mono hlater)
  · trivial

theorem define_has {operands : List Expr} (hscope : scope < size) (h : t.Values size operands) :
    (define scope operands).Has t t.Value size := by
  unfold define
  split
  · next name e =>
    refine Plan.has_bind (evaluate_has hscope (h e (by simp))) fun later hlater value hvalue => ?_
    have hname : (t.within size).name name := Expr.has_symbol_iff.mp (h (.symbol name) (by simp))
    exact ⟨⟨Nat.lt_of_lt_of_le hscope hlater, hname, hvalue⟩, fun _ _ _ hanswer => hanswer⟩
  · trivial
  · trivial

theorem mapM_symbol?_spec {items : List Expr} {params : List String}
    (h : items.mapM Expr.symbol? = some params) : items = params.map .symbol := by
  induction items generalizing params with
  | nil =>
    cases h
    rfl
  | cons item items ih =>
    rw [List.mapM_cons] at h
    obtain ⟨name, hname, h⟩ := Option.bind_eq_some_iff.mp h
    obtain ⟨names, hnames, h⟩ := Option.bind_eq_some_iff.mp h
    cases h
    rw [ih hnames]
    cases item <;> cases hname
    rfl

theorem lambda_has {operands : List Expr} (hscope : scope < size) (h : t.Values size operands) :
    (lambda scope operands).Has t t.Value size := by
  unfold lambda
  split
  · next items body =>
    split
    · next params hparams =>
      have hitems : t.Values size items := Expr.has_list_iff.mp (h (.list items) (by simp))
      refine .closure params body scope (fun param hparam => ?_) (h body (by simp)) hscope
      rw [mapM_symbol?_spec hparams] at hitems
      exact (Expr.has_symbol_iff (t := t.within size)).mp
        (hitems (.symbol param) (List.mem_map_of_mem hparam))
    · trivial
  · trivial
  · trivial

theorem cons_has {operands : List Expr} (hscope : scope < size) (h : t.Values size operands) :
    (cons scope operands).Has t t.Value size := by
  unfold cons
  split
  · next first second =>
    refine Plan.has_bind (evaluate_has hscope (h first (by simp))) fun later hlater head hhead => ?_
    refine Plan.has_bind
      (evaluate_has (Nat.lt_of_lt_of_le hscope hlater) ((h second (by simp)).within_mono hlater))
      fun last hlast tail htail => ?_
    split
    · next items =>
      have hitems : t.Values last (head :: items) :=
        .cons (hhead.within_mono hlast) (Expr.has_list_iff.mp htail)
      exact .list _ hitems
    · trivial
  · trivial

theorem special_has (form : Special) {operands : List Expr} (hscope : scope < size)
    (h : t.Values size operands) : (special scope form operands).Has t t.Value size := by
  cases form with
  | quote =>
    simp only [special]
    split
    · next e => exact h e List.mem_cons_self
    · trivial
  | quasiquote =>
    simp only [special]
    split
    · next template =>
      exact (Template.fill_has t scope).1 1 template size hscope (h template List.mem_cons_self)
    · trivial
  | unquote => trivial
  | splice => trivial
  | branch => exact branch_has hscope h
  | define => exact define_has hscope h
  | lambda => exact lambda_has hscope h
  | sequence =>
    simp only [special]
    split
    · trivial
    · exact evaluateInOrder_has hscope h
  | cons => exact cons_has hscope h

-- One evaluation of an expression with the traits, in a scope that exists.
theorem step_has (ht : t.Closed) {e : Expr} (hscope : scope < size) (h : t.Value size e) :
    (step scope e).Has t t.Value size := by
  unfold step
  split
  · exact ⟨⟨hscope, (Expr.has_symbol_iff (t := t.within size)).mp h⟩, fun _ _ _ hanswer => hanswer⟩
  · trivial
  · next name operands =>
    have hitems : t.Values size (.symbol name :: operands) := Expr.has_list_iff.mp h
    split
    · exact special_has _ hscope hitems.tail
    · exact combination_has ht hscope hitems
  · exact combination_has ht hscope (Expr.has_list_iff.mp h)
  · exact h

end Eval

end Lisplet
