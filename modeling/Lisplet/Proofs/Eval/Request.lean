import Lisplet.Proofs.Eval.Run
import Lisplet.Proofs.Expr.Part
import Lisplet.Proofs.Primitive.Causes

namespace Lisplet

namespace Plan

-- Everything the plan may come to ask for, whatever it is answered.
def Asks (ok : Request → Prop) : Plan α → Prop
  | done _ => True
  | fail _ => True
  | ask request next => ok request ∧ ∀ answer, (next answer).Asks ok

theorem Asks.imp {ok other : Request → Prop} {plan : Plan α} (h : plan.Asks ok)
    (himp : ∀ request, ok request → other request) : plan.Asks other := by
  induction plan with
  | done result => trivial
  | fail error => trivial
  | ask request next ih => exact ⟨himp request h.1, fun answer => ih answer (h.2 answer)⟩

-- What every request does to a machine, and what may be done one after the other, a plan does.
theorem run_rel {R : Machine → Machine → Prop} (hrefl : ∀ machine, R machine machine)
    (htrans : ∀ {first second third}, R first second → R second third → R first third)
    {evaluate : Rule} {plan : Plan α}
    (h : plan.Asks fun request =>
      ∀ machine, R machine ((request.perform evaluate).on machine).2) (machine : Machine) :
    R machine ((plan.run evaluate).on machine).2 := by
  induction plan generalizing machine with
  | done result => exact hrefl machine
  | fail error => exact hrefl machine
  | ask request next ih =>
    have hrequest := h.1 machine
    rw [on_run_ask]
    rcases hperform : (request.perform evaluate).on machine with ⟨failure | answer, after⟩
    · rw [hperform] at hrequest
      exact hrequest
    · rw [hperform] at hrequest
      exact htrans hrequest (ih answer (h.2 answer) after)

end Plan

-- A request about the scope and the parts of an expression. Calls may be of anything.
def Request.IsAbout (scope : FrameId) (whole : Expr) : Request → Prop
  | lookup s name => s = scope ∧ whole = .symbol name
  | define s name _ => s = scope ∧ ∃ e, whole = .list [.symbol "def", .symbol name, e]
  | evaluate s part => s = scope ∧ part.OccursIn whole
  | call .. => True

-- Rules fail by other errors. That an evaluation is too deep is found before its rule is asked.
def EvalError.isDepth (error : EvalError) : Bool := error.kind == .depth

theorem EvalError.isDepth_of_primitive? {error : EvalError} {p : Primitive}
    (h : error.primitive? = some p) : error.isDepth = false := by
  cases error <;> first | rfl | cases h

namespace Plan

-- A plan for an expression in a scope: all that it may come to ask for is about them, whatever it
-- is answered, and it leaves it to others to say that an evaluation is too deep.
def IsFor (scope : FrameId) (whole : Expr) : Plan α → Prop
  | done _ => True
  | fail error => error.isDepth = false
  | ask request next => request.IsAbout scope whole ∧ ∀ answer, (next answer).IsFor scope whole

variable {scope : FrameId} {part whole : Expr}

theorem isFor_bind {plan : Plan α} {f : α → Plan β} (h : plan.IsFor scope whole)
    (hf : ∀ a, (f a).IsFor scope whole) : (plan >>= f).IsFor scope whole := by
  induction plan with
  | done result => exact hf result
  | fail error => exact h
  | ask request next ih => exact ⟨h.1, fun answer => ih answer (h.2 answer)⟩

theorem isFor_evaluate (h : part.OccursIn whole) : (evaluate scope part).IsFor scope whole :=
  ⟨⟨rfl, h⟩, fun _ => trivial⟩

theorem isFor_ofResult {result : Except EvalError α}
    (h : FailsOnly (·.isDepth = false) result) : (ofResult result).IsFor scope whole := by
  cases result with
  | error error => exact h error rfl
  | ok value => trivial

theorem IsFor.asks {plan : Plan α} (h : plan.IsFor scope whole) :
    plan.Asks (Request.IsAbout scope whole) := by
  induction plan with
  | done result => trivial
  | fail error => trivial
  | ask request next ih => exact ⟨h.1, fun answer => ih answer (h.2 answer)⟩

end Plan

namespace Template

-- The shapes of the plans that fill a template, whatever the level.
theorem fill_induct (scope : FrameId) (template : Expr → Plan Expr → Prop)
    (items : List Expr → Plan (List Expr) → Prop)
    (keep : ∀ e, template e (pure e))
    (fail : ∀ e, template e (Plan.fail .spliceOutsideList))
    (hole : ∀ name body, template (.list [.symbol name, body]) (Plan.evaluate scope body))
    (nested : ∀ name body plan, template body plan →
      template (.list [.symbol name, body]) (do return .list [.symbol name, ← plan]))
    (list : ∀ es plan, items es plan → template (.list es) (do return .list (← plan)))
    (nil : items [] (pure []))
    (splice : ∀ name body rest plan, items rest plan →
      items (.list [.symbol name, body] :: rest) (do
        match ← Plan.evaluate scope body with
        | .list values => return values ++ (← plan)
        | _ => Plan.fail .spliceNotList))
    (cons : ∀ e rest plan plans, template e plan → items rest plans →
      items (e :: rest) (do let value ← plan; return value :: (← plans))) :
    (∀ level e, template e (fill scope level e)) ∧
      ∀ level es, items es (fillItems scope level es) := by
  apply fill.mutual_induct
  case case1 =>
    intro level name body hname ih
    simpa only [fill, hname] using nested name body _ ih
  case case2 =>
    intro level name body hname hlevel
    simpa only [fill, hname, if_pos hlevel] using hole name body
  case case3 =>
    intro level name body hname hlevel ih
    simpa only [fill, hname, if_neg hlevel] using nested name body _ ih
  case case4 =>
    intro level name body hname hlevel
    simpa only [fill, hname, if_pos hlevel] using fail (.list [.symbol name, body])
  case case5 =>
    intro level name body hname hlevel ih
    simpa only [fill, hname, if_neg hlevel] using nested name body _ ih
  case case6 =>
    intro level name body hname ih
    simpa only [fill, hname] using list _ _ ih
  case case7 =>
    intro level es hpair ih
    rw [fill]
    · exact list es _ ih
    · exact hpair
  case case8 =>
    intro level e hpair hlist
    rw [fill]
    · exact keep e
    · exact hpair
    · exact hlist
  case case9 => exact fun _ => nil
  case case10 =>
    intro level name body rest hsplice ih
    rw [fillItems, if_pos hsplice]
    exact splice name body rest _ ih
  case case11 =>
    intro level name body rest hsplice ih ihrest
    simpa only [fillItems, if_neg hsplice] using cons _ rest _ _ ih ihrest
  case case12 =>
    intro level e rest hpair ih ihrest
    rw [fillItems]
    · exact cons e rest _ _ ih ihrest
    · exact hpair

theorem fill_isFor {scope : FrameId} {whole : Expr} :
    (∀ level template, template.OccursIn whole →
      (fill scope level template).IsFor scope whole) ∧
      ∀ level items, (∀ item ∈ items, item.OccursIn whole) →
        (fillItems scope level items).IsFor scope whole := by
  refine fill_induct scope (fun e plan => e.OccursIn whole → plan.IsFor scope whole)
    (fun items plan => (∀ item ∈ items, item.OccursIn whole) → plan.IsFor scope whole)
    ?keep ?fail ?hole ?nested ?list ?nil ?splice ?cons
  case keep => exact fun e _ => trivial
  case fail => exact fun e _ => rfl
  case hole =>
    intro name body h
    exact Plan.isFor_evaluate (.of_mem (by simp) h)
  case nested =>
    intro name body plan ih h
    exact Plan.isFor_bind (ih (.of_mem (by simp) h)) fun _ => trivial
  case list =>
    intro es plan ih h
    exact Plan.isFor_bind (ih fun item hitem => .of_mem hitem h) fun _ => trivial
  case nil => exact fun _ => trivial
  case splice =>
    intro name body rest plan ih h
    have hbody : body.OccursIn whole := .of_mem (by simp) (h _ List.mem_cons_self)
    refine Plan.isFor_bind (Plan.isFor_evaluate hbody) fun value => ?_
    cases value with
    | list values =>
      exact Plan.isFor_bind (ih fun item hitem => h item (List.mem_cons_of_mem _ hitem)) fun _ =>
        trivial
    | _ => exact rfl
  case cons =>
    intro e rest plan plans ih ihrest h
    refine Plan.isFor_bind (ih (h e List.mem_cons_self)) fun _ => ?_
    exact Plan.isFor_bind (ihrest fun item hitem => h item (List.mem_cons_of_mem _ hitem)) fun _ =>
      trivial

end Template

namespace Eval

variable {scope : FrameId} {whole : Expr}

theorem evaluateAll_isFor (items : List Expr) (h : ∀ item ∈ items, item.OccursIn whole) :
    (evaluateAll scope items).IsFor scope whole := by
  induction items with
  | nil => trivial
  | cons e rest ih =>
    refine Plan.isFor_bind (Plan.isFor_evaluate (h e List.mem_cons_self)) fun _ => ?_
    exact Plan.isFor_bind (ih fun item hitem => h item (List.mem_cons_of_mem _ hitem)) fun _ =>
      trivial

theorem evaluateInOrder_isFor (e : Expr) (rest : List Expr)
    (h : ∀ item ∈ e :: rest, item.OccursIn whole) :
    (evaluateInOrder scope e rest).IsFor scope whole := by
  induction rest generalizing e with
  | nil => exact Plan.isFor_evaluate (h e List.mem_cons_self)
  | cons next rest ih =>
    refine Plan.isFor_bind (Plan.isFor_evaluate (h e List.mem_cons_self)) fun _ => ?_
    exact ih next fun item hitem => h item (List.mem_cons_of_mem _ hitem)

theorem application_isFor (procedure : Expr) (args : List Expr) :
    (application procedure args).IsFor scope whole := by
  cases procedure with
  | builtin p =>
    exact Plan.isFor_ofResult fun error herror =>
      EvalError.isDepth_of_primitive? (p.names_apply (.list args) error herror)
  | closure params body captured => exact ⟨trivial, fun _ => trivial⟩
  | _ => exact rfl

theorem combination_isFor (operator : Expr) (operands : List Expr)
    (h : ∀ item ∈ operator :: operands, item.OccursIn whole) :
    (combination scope operator operands).IsFor scope whole := by
  refine Plan.isFor_bind (Plan.isFor_evaluate (h operator List.mem_cons_self)) fun procedure => ?_
  refine Plan.isFor_bind ?_ fun args => application_isFor procedure args
  exact evaluateAll_isFor operands fun item hitem => h item (List.mem_cons_of_mem _ hitem)

theorem branch_isFor (operands : List Expr) (h : ∀ item ∈ operands, item.OccursIn whole) :
    (branch scope operands).IsFor scope whole := by
  unfold branch
  split
  · next condition consequent alternative =>
    refine Plan.isFor_bind (Plan.isFor_evaluate (h condition (by simp))) fun value => ?_
    split
    · exact Plan.isFor_evaluate (h alternative (by simp))
    · exact Plan.isFor_evaluate (h consequent (by simp))
  · exact rfl

theorem define_isFor (operands : List Expr) (hwhole : whole = .list (.symbol "def" :: operands)) :
    (define scope operands).IsFor scope whole := by
  subst hwhole
  unfold define
  split
  · next name e =>
    refine Plan.isFor_bind (Plan.isFor_evaluate (.item _ e (by simp) .whole)) fun value => ?_
    exact ⟨⟨rfl, e, rfl⟩, fun _ => trivial⟩
  · exact rfl
  · exact rfl

theorem lambda_isFor (operands : List Expr) : (lambda scope operands).IsFor scope whole := by
  unfold lambda
  split
  · split
    · trivial
    · exact rfl
  · exact rfl
  · exact rfl

theorem cons_isFor (operands : List Expr) (h : ∀ item ∈ operands, item.OccursIn whole) :
    (cons scope operands).IsFor scope whole := by
  unfold cons
  split
  · next first second =>
    refine Plan.isFor_bind (Plan.isFor_evaluate (h first (by simp))) fun head => ?_
    refine Plan.isFor_bind (Plan.isFor_evaluate (h second (by simp))) fun tail => ?_
    split
    · trivial
    · exact rfl
  · exact rfl

theorem keyword_of_define {keyword : String} (h : Special.ofKeyword? keyword = some .define) :
    keyword = "def" := by
  unfold Special.ofKeyword? at h
  split at h <;> first | rfl | cases h

theorem special_isFor (form : Special) (operands : List Expr)
    (h : ∀ item ∈ operands, item.OccursIn whole)
    (hdefine : form = .define → whole = .list (.symbol "def" :: operands)) :
    (special scope form operands).IsFor scope whole := by
  cases form with
  | quote =>
    simp only [special]
    split
    · trivial
    · exact rfl
  | quasiquote =>
    simp only [special]
    split
    · next template => exact Template.fill_isFor.1 1 template (h template List.mem_cons_self)
    · exact rfl
  | unquote => exact rfl
  | splice => exact rfl
  | branch => exact branch_isFor operands h
  | define => exact define_isFor operands (hdefine rfl)
  | lambda => exact lambda_isFor operands
  | sequence =>
    simp only [special]
    split
    · exact rfl
    · next e rest => exact evaluateInOrder_isFor e rest h
  | cons => exact cons_isFor operands h

theorem step_isFor (scope : FrameId) (e : Expr) : (step scope e).IsFor scope e := by
  cases e with
  | symbol name => exact ⟨⟨rfl, rfl⟩, fun _ => trivial⟩
  | list items =>
    have hitems : ∀ item ∈ items, item.OccursIn (.list items) := fun item hitem =>
      .item items item hitem .whole
    unfold step
    split
    · trivial
    · exact rfl
    · next name operands heq =>
      cases heq
      split
      · next form hform =>
        refine special_isFor form operands
          (fun item hitem => hitems item (List.mem_cons_of_mem _ hitem)) fun hdefine => ?_
        subst hdefine
        rw [keyword_of_define hform]
      · exact combination_isFor _ operands hitems
    · next operator operands _ heq =>
      cases heq
      exact combination_isFor operator operands hitems
    · trivial
  | _ => trivial

-- Evaluation in a scope reads and writes that scope alone, and only as its expression says; other
-- scopes come in through calls.
theorem step_asks (scope : FrameId) (e : Expr) : (step scope e).Asks (Request.IsAbout scope e) :=
  (step_isFor scope e).asks

end Eval

end Lisplet
