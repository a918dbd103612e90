import Lisplet.Proofs.Eval.Run
import Lisplet.Proofs.Expr.Rename

namespace Lisplet

namespace Expr

variable {f : FrameId → FrameId}

theorem rename_eq_symbol_iff {e : Expr} {name : String} :
    e.rename f = .symbol name ↔ e = .symbol name := by
  cases e <;> simp

theorem exists_of_rename_eq_list {e : Expr} {items : List Expr} (h : e.rename f = .list items) :
    ∃ others, e = .list others := by
  cases e with
  | list others => exact ⟨others, rfl⟩
  | _ => cases h

-- Renaming does not turn a list into one that begins with a keyword.
theorem exists_of_map_rename_eq_pair {items : List Expr} {name : String} {e : Expr}
    (h : items.map (rename f) = [.symbol name, e]) : ∃ body, items = [.symbol name, body] := by
  obtain ⟨first, rest, rfl, hfirst, hrest⟩ := List.map_eq_cons_iff.mp h
  obtain ⟨body, more, rfl, -, hmore⟩ := List.map_eq_cons_iff.mp hrest
  rw [rename_eq_symbol_iff.mp hfirst, List.map_eq_nil_iff.mp hmore]
  exact ⟨body, rfl⟩

end Expr

def Request.rename (f : FrameId → FrameId) : Request → Request
  | lookup scope name => lookup (f scope) name
  | define scope name value => define (f scope) name (value.rename f)
  | evaluate scope e => evaluate (f scope) (e.rename f)
  | call params body scope args =>
    call params (body.rename f) (f scope) (args.map (Expr.rename f))

-- The other plan asks for the same in other scopes, provided that it is answered alike.
inductive Plan.Mirrors (f : FrameId → FrameId) (onResult : α → β) : Plan α → Plan β → Prop
  | done (result : α) : Mirrors f onResult (.done result) (.done (onResult result))
  | fail (error : EvalError) : Mirrors f onResult (.fail error) (.fail (error.rename f))
  | ask (request : Request) (next : Expr → Plan α) (next' : Expr → Plan β)
      (h : ∀ answer, Mirrors f onResult (next answer) (next' (answer.rename f))) :
      Mirrors f onResult (.ask request next) (.ask (request.rename f) next')

namespace Plan

variable {f : FrameId → FrameId}

theorem mirrors_bind {onResult : α → α'} {onFinal : β → β'} {plan : Plan α} {plan' : Plan α'}
    {g : α → Plan β} {g' : α' → Plan β'} (h : plan.Mirrors f onResult plan')
    (hg : ∀ a, (g a).Mirrors f onFinal (g' (onResult a))) :
    (plan >>= g).Mirrors f onFinal (plan' >>= g') := by
  induction h with
  | done result => exact hg result
  | fail error => exact .fail error
  | ask request next next' _ ih => exact .ask request _ _ ih

theorem mirrors_evaluate (scope : FrameId) (e : Expr) :
    (evaluate scope e).Mirrors f (Expr.rename f) (evaluate (f scope) (e.rename f)) :=
  .ask (.evaluate scope e) _ _ fun answer => .done answer

theorem mirrors_ofResult {onResult : α → α'} (result : Except EvalError α) :
    (ofResult result).Mirrors f onResult
      (ofResult (relabel (EvalError.rename f) onResult result)) := by
  cases result with
  | ok a => exact .done a
  | error error => exact .fail error

theorem mirrors_list {plan plan' : Plan (List Expr)}
    (h : plan.Mirrors f (List.map (Expr.rename f)) plan') :
    (do return Expr.list (← plan)).Mirrors f (Expr.rename f) (do return Expr.list (← plan')) :=
  mirrors_bind h fun items => Expr.rename_list f items ▸ .done (Expr.list items)

theorem mirrors_pair {plan plan' : Plan Expr} (name : String)
    (h : plan.Mirrors f (Expr.rename f) plan') :
    (do return Expr.list [.symbol name, ← plan]).Mirrors f (Expr.rename f)
      (do return Expr.list [.symbol name, ← plan']) :=
  mirrors_bind h fun value => .done (Expr.list [.symbol name, value])

theorem mirrors_cons {plan plan' : Plan Expr} {plans plans' : Plan (List Expr)}
    (h : plan.Mirrors f (Expr.rename f) plan')
    (hs : plans.Mirrors f (List.map (Expr.rename f)) plans') :
    (do let value ← plan; return value :: (← plans)).Mirrors f (List.map (Expr.rename f))
      (do let value ← plan'; return value :: (← plans')) :=
  mirrors_bind h fun value => mirrors_bind hs fun values => .done (value :: values)

end Plan

open Plan

namespace Template

variable (f : FrameId → FrameId) (scope : FrameId)

theorem fill_mirrors :
    (∀ level template, (fill scope level template).Mirrors f (Expr.rename f)
      (fill (f scope) level (template.rename f))) ∧
    ∀ level items, (fillItems scope level items).Mirrors f (List.map (Expr.rename f))
      (fillItems (f scope) level (items.map (Expr.rename f))) := by
  apply fill.mutual_induct
  case case1 =>
    intro level name body hname ih
    simpa [fill, hname] using mirrors_pair name ih
  case case2 =>
    intro level name body hname hlevel
    simpa [fill, hname, hlevel] using mirrors_evaluate scope body
  case case3 =>
    intro level name body hname hlevel ih
    simpa [fill, hname, hlevel] using mirrors_pair name ih
  case case4 =>
    intro level name body hname hlevel
    simp only [Expr.rename_list, List.map_cons, List.map_nil, Expr.rename_symbol, fill, hname,
      if_pos hlevel]
    exact .fail .spliceOutsideList
  case case5 =>
    intro level name body hname hlevel ih
    simpa [fill, hname, hlevel] using mirrors_pair name ih
  case case6 =>
    intro level name body hname ih
    simpa [fill, hname] using mirrors_list ih
  case case7 =>
    intro level items hpair ih
    rw [Expr.rename_list, fill, fill]
    · exact mirrors_list ih
    · intro name body h
      obtain ⟨body, rfl⟩ := Expr.exists_of_map_rename_eq_pair h
      exact hpair name body rfl
    · exact hpair
  case case8 =>
    intro level e hpair hlist
    rw [fill, fill]
    · exact .done e
    · intro name body h
      obtain ⟨items, rfl⟩ := Expr.exists_of_rename_eq_list h
      exact hlist items rfl
    · intro items h
      obtain ⟨items, rfl⟩ := Expr.exists_of_rename_eq_list h
      exact hlist items rfl
    · exact hpair
    · exact hlist
  case case9 => exact fun _ => .done []
  case case10 =>
    intro level name body rest hsplice ih
    simp only [List.map_cons, List.map_nil, Expr.rename_list, Expr.rename_symbol, fillItems,
      if_pos hsplice]
    refine mirrors_bind (mirrors_evaluate scope body) fun value => ?_
    cases value with
    | list values =>
      rw [Expr.rename_list]
      exact mirrors_bind ih fun items => List.map_append ▸ .done (values ++ items)
    | _ => exact .fail EvalError.spliceNotList
  case case11 =>
    intro level name body rest hsplice ih ihrest
    simp only [List.map_cons, List.map_nil, Expr.rename_list, Expr.rename_symbol, fillItems,
      if_neg hsplice] at ih ⊢
    exact mirrors_cons ih ihrest
  case case12 =>
    intro level e rest hpair ih ihrest
    rw [List.map_cons, fillItems, fillItems]
    · exact mirrors_cons ih ihrest
    · intro name body h
      obtain ⟨items, rfl⟩ := Expr.exists_of_rename_eq_list h
      rw [Expr.rename_list] at h
      obtain ⟨body, rfl⟩ := Expr.exists_of_map_rename_eq_pair (Expr.list.inj h)
      exact hpair name body rfl
    · exact hpair

end Template

namespace Eval

variable (f : FrameId → FrameId) (scope : FrameId)

theorem evaluateAll_mirrors (items : List Expr) :
    (evaluateAll scope items).Mirrors f (List.map (Expr.rename f))
      (evaluateAll (f scope) (items.map (Expr.rename f))) := by
  induction items with
  | nil => exact .done []
  | cons e rest ih => exact mirrors_cons (mirrors_evaluate scope e) ih

theorem evaluateInOrder_mirrors (e : Expr) (rest : List Expr) :
    (evaluateInOrder scope e rest).Mirrors f (Expr.rename f)
      (evaluateInOrder (f scope) (e.rename f) (rest.map (Expr.rename f))) := by
  induction rest generalizing e with
  | nil => exact mirrors_evaluate scope e
  | cons next rest ih => exact mirrors_bind (mirrors_evaluate scope e) fun _ => ih next

theorem application_mirrors (procedure : Expr) (args : List Expr) :
    (application procedure args).Mirrors f (Expr.rename f)
      (application (procedure.rename f) (args.map (Expr.rename f))) := by
  cases procedure with
  | builtin p =>
    have happly := p.apply_rename f (.list args)
    rw [Expr.rename_list] at happly
    simp only [application, Expr.rename_builtin, happly]
    exact mirrors_ofResult _
  | closure params body captured =>
    exact .ask (.call params body captured args) _ _ fun answer => .done answer
  | _ => exact .fail (.notCallable _)

theorem combination_mirrors (operator : Expr) (operands : List Expr) :
    (combination scope operator operands).Mirrors f (Expr.rename f)
      (combination (f scope) (operator.rename f) (operands.map (Expr.rename f))) := by
  refine mirrors_bind (mirrors_evaluate scope operator) fun procedure => ?_
  exact mirrors_bind (evaluateAll_mirrors f scope operands) fun args =>
    application_mirrors f procedure args

theorem branch_mirrors (operands : List Expr) :
    (branch scope operands).Mirrors f (Expr.rename f)
      (branch (f scope) (operands.map (Expr.rename f))) := by
  rcases operands with _ | ⟨condition, _ | ⟨consequent, _ | ⟨alternative, _ | ⟨more, rest⟩⟩⟩⟩
  case cons.cons.cons.nil =>
    refine mirrors_bind (mirrors_evaluate scope condition) fun value => ?_
    rw [Expr.isFalse_rename, ← apply_ite (Expr.rename f)]
    exact mirrors_evaluate scope _
  all_goals exact .fail (.operandCount .branch)

theorem define_mirrors (operands : List Expr) :
    (define scope operands).Mirrors f (Expr.rename f)
      (define (f scope) (operands.map (Expr.rename f))) := by
  rcases operands with _ | ⟨first, _ | ⟨e, _ | ⟨more, rest⟩⟩⟩
  case cons.cons.nil =>
    cases first with
    | symbol name =>
      refine mirrors_bind (mirrors_evaluate scope e) fun value => ?_
      exact .ask (.define scope name value) _ _ fun answer => .done answer
    | _ => exact .fail (.notAName _)
  case nil => exact .fail (.operandCount .define)
  all_goals cases first <;> exact .fail (.operandCount .define)

theorem lambda_mirrors (operands : List Expr) :
    (lambda scope operands).Mirrors f (Expr.rename f)
      (lambda (f scope) (operands.map (Expr.rename f))) := by
  rcases operands with _ | ⟨first, _ | ⟨body, _ | ⟨more, rest⟩⟩⟩
  case cons.cons.nil =>
    cases first with
    | list items =>
      have hnames : (items.map (Expr.rename f)).mapM Expr.symbol? = items.mapM Expr.symbol? := by
        simp only [List.mapM_map, Function.comp_def, Expr.symbol?_rename]
      simp only [lambda, List.map_cons, List.map_nil, Expr.rename_list, hnames]
      split
      · next params _ => exact Mirrors.done (Expr.closure params body scope)
      · exact Expr.rename_list f items ▸ Mirrors.fail (.notParameters (.list items))
    | _ => exact .fail (.notParameters _)
  case nil => exact .fail (.operandCount .lambda)
  all_goals cases first <;> exact .fail (.operandCount .lambda)

theorem cons_mirrors (operands : List Expr) :
    (cons scope operands).Mirrors f (Expr.rename f)
      (cons (f scope) (operands.map (Expr.rename f))) := by
  rcases operands with _ | ⟨first, _ | ⟨second, _ | ⟨more, rest⟩⟩⟩
  case cons.cons.nil =>
    refine mirrors_bind (mirrors_evaluate scope first) fun head => ?_
    refine mirrors_bind (mirrors_evaluate scope second) fun tail => ?_
    cases tail with
    | list items =>
      have hdone : (done (Expr.list (head :: items))).Mirrors f (Expr.rename f)
          (done ((Expr.list (head :: items)).rename f)) := .done _
      rw [Expr.rename_list] at hdone ⊢
      exact hdone
    | _ => exact .fail (.tailNotList _)
  all_goals exact .fail (.operandCount .cons)

theorem special_mirrors (form : Special) (operands : List Expr) :
    (special scope form operands).Mirrors f (Expr.rename f)
      (special (f scope) form (operands.map (Expr.rename f))) := by
  cases form with
  | quote =>
    rcases operands with _ | ⟨e, _ | ⟨more, rest⟩⟩
    case cons.nil => exact .done e
    all_goals exact .fail (.operandCount .quote)
  | quasiquote =>
    rcases operands with _ | ⟨template, _ | ⟨more, rest⟩⟩
    case cons.nil => exact (Template.fill_mirrors f scope).1 1 template
    all_goals exact .fail (.operandCount .quasiquote)
  | unquote => exact .fail (.outsideTemplate .unquote)
  | splice => exact .fail (.outsideTemplate .splice)
  | branch => exact branch_mirrors f scope operands
  | define => exact define_mirrors f scope operands
  | lambda => exact lambda_mirrors f scope operands
  | sequence =>
    cases operands with
    | nil => exact .fail (.operandCount .sequence)
    | cons e rest => exact evaluateInOrder_mirrors f scope e rest
  | cons => exact cons_mirrors f scope operands

-- Evaluation does not look at the numbers of scopes.
theorem step_mirrors (e : Expr) :
    (step scope e).Mirrors f (Expr.rename f) (step (f scope) (e.rename f)) := by
  cases e with
  | symbol name => exact .ask (.lookup scope name) _ _ fun answer => .done answer
  | list items =>
    rw [Expr.rename_list]
    rcases items with _ | ⟨operator, operands⟩
    · exact .fail .emptyCall
    · cases operator with
      | symbol name =>
        simp only [step, List.map_cons, Expr.rename_symbol]
        split
        · exact special_mirrors f scope _ operands
        · exact combination_mirrors f scope (.symbol name) operands
      | _ => exact combination_mirrors f scope _ operands
  | _ => exact .done _

end Eval

end Lisplet
