import Lisplet.Proofs.Bare.Primitive

namespace Lisplet

-- What a plan asks for, spelled out in the operations of the host.
def Request.bare (rule : BareRule) : Request → BareM Expr
  | lookup scope name => Bare.lookup scope name
  | define scope name value => do
    Bare.assign scope name value
    return value
  | .evaluate scope e => rule scope e
  | call params body scope args => do rule (← Bare.enter params args scope) body

def Plan.bare (rule : BareRule) : Plan α → BareM α
  | done result => return result
  | fail error => Bare.raise error
  | ask request next => do (next (← request.bare rule)).bare rule

namespace Plan

variable (rule : BareRule) (scope : FrameId)

@[simp] theorem bare_pure (a : α) : (pure a : Plan α).bare rule = pure a := rfl

@[simp] theorem bare_bind (plan : Plan α) (f : α → Plan β) :
    (plan >>= f).bare rule = (do (f (← plan.bare rule)).bare rule) := by
  induction plan with
  | done a => rfl
  | fail error => rfl
  | ask request next ih =>
    have hbind : (Plan.ask request next >>= f).bare rule =
        (do (next (← request.bare rule) >>= f).bare rule) := rfl
    rw [hbind, Plan.bare, bind_assoc]
    exact bind_congr ih

@[simp] theorem bare_evaluate (e : Expr) : (evaluate scope e).bare rule = rule scope e :=
  bind_pure (rule scope e)

@[simp] theorem bare_ofResult (result : Except EvalError α) :
    (ofResult result).bare rule = (result.mapError Bare.signal : Raises α) := by
  cases result <;> rfl

end Plan

namespace Bare

variable (rule : BareRule) (scope : FrameId)

theorem branch_eq (operands : List Expr) :
    branch rule scope (.list operands) = (Eval.branch scope operands).bare rule := by
  rcases operands with _ | ⟨condition, _ | ⟨consequent, _ | ⟨alternative, _ | ⟨_, _⟩⟩⟩⟩
  · rfl
  · rfl
  · rfl
  · simp only [Eval.branch, Plan.bare_bind, Plan.bare_evaluate]
    change (rule scope condition >>= fun value =>
      if value.isFalse then rule scope alternative else rule scope consequent) = _
    refine bind_congr fun value => ?_
    split <;> rfl
  · rfl

theorem cons_eq (operands : List Expr) :
    cons rule scope (.list operands) = (Eval.cons scope operands).bare rule := by
  rcases operands with _ | ⟨first, _ | ⟨second, _ | ⟨_, _⟩⟩⟩
  · rfl
  · rfl
  · simp only [Eval.cons, Plan.bare_bind, Plan.bare_evaluate]
    change (rule scope first >>= fun head => rule scope second >>= fun value => _) = _
    refine bind_congr fun head => bind_congr fun value => ?_
    cases value <;> rfl
  · rfl

theorem define_eq (operands : List Expr) :
    define rule scope (.list operands) = (Eval.define scope operands).bare rule := by
  rcases operands with _ | ⟨name, _ | ⟨e, _ | ⟨_, _⟩⟩⟩
  · rfl
  · cases name <;> rfl
  · cases name with
    | symbol name =>
      simp only [Eval.define, Plan.bare_bind, Plan.bare_evaluate]
      exact bind_congr fun value => rfl
    | _ => rfl
  · cases name <;> rfl

-- Either all parameters are symbols and so have names, or the test finds the one that is not.
theorem params_cases (params : List Expr) :
    (∃ names, params.mapM Expr.symbol? = some names ∧ params.all isSymbol = true ∧
        params.mapM nameOf = .ok names) ∨
      params.mapM Expr.symbol? = none ∧ params.all isSymbol = false := by
  induction params with
  | nil => exact .inl ⟨[], rfl, rfl, rfl⟩
  | cons param params ih =>
    rw [List.mapM_cons, List.mapM_cons, List.all_cons]
    cases param with
    | symbol name =>
      rcases ih with ⟨names, hsymbols, hall, hnames⟩ | ⟨hsymbols, hall⟩
      · exact .inl ⟨name :: names, by rw [hsymbols]; rfl, hall, by rw [hnames]; rfl⟩
      · exact .inr ⟨by rw [hsymbols]; rfl, hall⟩
    | _ => exact .inr ⟨rfl, rfl⟩

theorem lambda_eq (operands : List Expr) :
    (lambda scope (.list operands) : BareM Expr) = (Eval.lambda scope operands).bare rule := by
  rcases operands with _ | ⟨params, _ | ⟨body, _ | ⟨_, _⟩⟩⟩
  · rfl
  · cases params <;> rfl
  · cases params with
    | list items =>
      have hbare : lambda scope (.list [.list items, body]) = (do
          require (items.all isSymbol) (.notParameters (.list items))
          return .closure (← items.mapM nameOf) body scope) := rfl
      rw [hbare, Eval.lambda]
      rcases params_cases items with ⟨names, hsymbols, hall, hnames⟩ | ⟨hsymbols, hall⟩
      · rw [hsymbols, hall, hnames]
        rfl
      · rw [hsymbols, hall]
        rfl
    | _ => rfl
  · cases params <;> rfl

-- The value of the last expression takes the place of every earlier one.
theorem foldlM_eq_evaluateInOrder (e : Expr) (rest : List Expr) (earlier : Option Expr) :
    (e :: rest).foldlM (fun _ e => some <$> rule scope e) earlier =
      some <$> (Eval.evaluateInOrder scope e rest).bare rule := by
  induction rest generalizing e earlier with
  | nil =>
    rw [List.foldlM_cons, Eval.evaluateInOrder, Plan.bare_evaluate]
    exact bind_pure (some <$> rule scope e)
  | cons next rest ih =>
    rw [List.foldlM_cons, bind_map_left, Eval.evaluateInOrder, Plan.bare_bind, Plan.bare_evaluate,
      map_bind]
    exact bind_congr fun value => ih next (some value)

theorem sequence_cons (e : Expr) (rest : List Expr) :
    sequence rule scope (.list (e :: rest)) = (do
      match ← (e :: rest).foldlM (fun _ e => some <$> rule scope e) none with
      | some value => return value
      | none => fail .noResult) := rfl

theorem sequence_eq (operands : List Expr) :
    sequence rule scope (.list operands) =
      (Eval.special scope .sequence operands).bare rule := by
  cases operands with
  | nil => rfl
  | cons e rest =>
    rw [sequence_cons, foldlM_eq_evaluateInOrder, bind_map_left]
    exact bind_pure ((Eval.evaluateInOrder scope e rest).bare rule)

theorem evaluateAll_eq (operands : List Expr) :
    operands.mapM (rule scope) = (Eval.evaluateAll scope operands).bare rule := by
  induction operands with
  | nil => rfl
  | cons e operands ih =>
    rw [List.mapM_cons, ih, Eval.evaluateAll]
    simp only [Plan.bare_bind, Plan.bare_evaluate, Plan.bare_pure]

theorem apply_eq (procedure : Expr) (args : List Expr) :
    apply rule procedure (.list args) = (Eval.application procedure args).bare rule := by
  cases procedure with
  | builtin p =>
    rw [Eval.application, Plan.bare_ofResult, ← act_eq]
    rfl
  | closure params body outer => exact (bind_pure (apply rule (.closure params body outer) _)).symm
  | _ => rfl

theorem combination_eq (operator : Expr) (operands : List Expr) :
    combination rule scope (.list (operator :: operands)) =
      (Eval.combination scope operator operands).bare rule := by
  have hfirst : first (.list (operator :: operands)) = .ok operator := item_zero operator operands
  simp only [Eval.combination, Plan.bare_bind, Plan.bare_evaluate, ← evaluateAll_eq, ← apply_eq]
  rw [combination, hfirst]
  rfl

theorem isForm_form (quasi other : Quasi) (body : Expr) :
    isForm quasi (other.form body) = .ok (decide (other = quasi)) := by
  cases quasi <;> cases other <;> rfl

theorem isForm_of_ne {quasi : Quasi} {e : Expr} (h : ∀ body, e ≠ quasi.form body) :
    isForm quasi e = .ok false := by
  cases e with
  | list items =>
    rcases items with _ | ⟨head, _ | ⟨body, _ | ⟨_, _⟩⟩⟩
    · rfl
    · rfl
    · cases head with
      | symbol name =>
        have hname : name ≠ quasi.keyword := fun hname => h body (by rw [hname]; rfl)
        have hform : isForm quasi (.list [.symbol name, body]) = .ok (name == quasi.keyword) := rfl
        rw [hform, beq_false_of_ne hname]
      | _ => rfl
    · rfl
  | _ => rfl

open Template in
-- A test for each of the three forms finds the one that the case split of `Template.fill` finds.
theorem fill_eq :
    (∀ level template, 1 ≤ level →
      fill rule scope level template = (Template.fill scope level template).bare rule) ∧
      ∀ level items, 1 ≤ level →
        fillEach rule scope level items = (fillItems scope level items).bare rule := by
  refine form_induct _ _ ?hole ?stray ?raised ?lowered ?leaf ?list ?nil ?splice ?cons
  case hole =>
    intro body
    rw [fill_unquote, Plan.bare_evaluate]
    rfl
  case stray =>
    intro body
    rw [fill_stray]
    rfl
  case raised =>
    intro level body ih
    rw [fill_quasiquote, Plan.bare_bind, ← ih]
    rfl
  case lowered =>
    intro level quasi body hquasi hlevel ih
    rw [fill_lowered scope hquasi hlevel, Plan.bare_bind, ← ih]
    have habove : level + 1 ≠ 1 := by omega
    cases quasi with
    | quasiquote => exact absurd rfl hquasi
    | unquote =>
      have hbare : fill rule scope (level + 1) (Quasi.unquote.form body) =
          if level + 1 = 1 then rule scope body
          else do return Quasi.unquote.form (← fill rule scope level body) := rfl
      rw [hbare, if_neg habove]
      rfl
    | splice =>
      have hbare : fill rule scope (level + 1) (Quasi.splice.form body) =
          if level + 1 = 1 then liftM (raise .spliceOutsideList : Raises Expr)
          else do return Quasi.splice.form (← fill rule scope level body) := rfl
      rw [hbare, if_neg habove]
      rfl
  case leaf =>
    intro level e he
    rw [fill_leaf scope level he]
    cases e with
    | list items => exact absurd rfl (he items)
    | _ => rfl
  case list =>
    intro level items hitems ih
    rw [fill_list scope level hitems, Plan.bare_bind, ← ih, fill]
    have htest : ∀ quasi, isForm quasi (.list items) = .ok false :=
      fun quasi => isForm_of_ne (hitems quasi)
    rw [htest, htest, htest]
    rfl
  case nil =>
    intro level
    rfl
  case splice =>
    intro body rest ih
    rw [fillItems_splice, Plan.bare_bind, Plan.bare_evaluate]
    have hbare : fillEach rule scope 1 (Quasi.splice.form body :: rest) = (do
        let value ← rule scope body
        require (isList value) .spliceNotList
        return (← itemsOf value) ++ (← fillEach rule scope 1 rest)) := rfl
    rw [hbare, ih]
    refine bind_congr fun value => ?_
    cases value with
    | list values =>
      dsimp only
      rw [Plan.bare_bind]
      rfl
    | _ => rfl
  case cons =>
    intro level item rest hsplice ih ihrest
    have hbare : fillEach rule scope level (item :: rest) = (do
        if (← isForm .splice item) && level = 1 then
          let value ← rule scope (← Bare.item item 1)
          require (isList value) .spliceNotList
          return (← itemsOf value) ++ (← fillEach rule scope level rest)
        else return (← fill rule scope level item) :: (← fillEach rule scope level rest)) := rfl
    have htest : ∃ tested, isForm .splice item = .ok tested ∧
        (tested && decide (level = 1)) = false := by
      by_cases hform : ∃ body, item = Quasi.splice.form body
      · obtain ⟨body, rfl⟩ := hform
        have habove : level ≠ 1 := fun hlevel => hsplice (Nat.le_of_eq hlevel) body rfl
        exact ⟨true, isForm_form .splice .splice body, by simp [habove]⟩
      · exact ⟨false, isForm_of_ne fun body hbody => hform ⟨body, hbody⟩, rfl⟩
    obtain ⟨tested, hisForm, htested⟩ := htest
    rw [hbare, hisForm, fillItems_cons scope rest hsplice]
    change (if (tested && decide (level = 1)) = true then _ else _) = _
    rw [if_neg (Bool.eq_false_iff.mp htested), Plan.bare_bind, ih]
    refine bind_congr fun value => ?_
    rw [Plan.bare_bind, ihrest]
    rfl

theorem special_eq (form : Special) (operands : List Expr) :
    special rule scope form (.list operands) = (Eval.special scope form operands).bare rule := by
  cases form with
  | quote =>
    rcases operands with _ | ⟨e, _ | ⟨_, _⟩⟩ <;> rfl
  | quasiquote =>
    rcases operands with _ | ⟨template, _ | ⟨_, _⟩⟩
    · rfl
    · exact (fill_eq rule scope).1 1 template (Nat.le_refl 1)
    · rfl
  | unquote => rfl
  | splice => rfl
  | branch => exact branch_eq rule scope operands
  | define => exact define_eq rule scope operands
  | lambda => exact lambda_eq rule scope operands
  | sequence => exact sequence_eq rule scope operands
  | cons => exact cons_eq rule scope operands

theorem step_eq (e : Expr) : step rule scope e = (Eval.step scope e).bare rule := by
  cases e with
  | symbol name => exact (bind_pure (lookup scope name)).symm
  | list items =>
    cases items with
    | nil => rfl
    | cons head operands =>
      cases head with
      | symbol name =>
        have hbare : step rule scope (.list (.symbol name :: operands)) =
            if (Special.ofKeyword? name).isSome then
              do special rule scope (← specialOf name) (.list operands)
            else combination rule scope (.list (.symbol name :: operands)) := rfl
        rw [hbare, Eval.step, specialOf]
        cases Special.ofKeyword? name with
        | none => exact combination_eq rule scope (.symbol name) operands
        | some form => exact special_eq rule scope form operands
      | _ => exact combination_eq rule scope _ operands
  | _ => rfl

end Bare

end Lisplet
