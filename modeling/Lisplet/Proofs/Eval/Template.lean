import Lisplet.Proofs.Eval.Trace

namespace Lisplet

namespace Quasi

def keyword : Quasi → String
  | quasiquote => "quasiquote"
  | unquote => "unquote"
  | splice => "unquotesplicing"

def form (quasi : Quasi) (body : Expr) : Expr := .list [.symbol quasi.keyword, body]

theorem ofKeyword?_eq_some_iff {name : String} {quasi : Quasi} :
    ofKeyword? name = some quasi ↔ name = quasi.keyword := by
  constructor
  · intro h
    unfold ofKeyword? at h
    split at h <;> cases h <;> rfl
  · rintro rfl
    cases quasi <;> rfl

theorem ofKeyword?_keyword (quasi : Quasi) : ofKeyword? quasi.keyword = some quasi :=
  ofKeyword?_eq_some_iff.mpr rfl

theorem form_inj {quasi other : Quasi} {body body' : Expr} (h : quasi.form body = other.form body') :
    quasi = other ∧ body = body' := by
  simp only [form, Expr.list.injEq, List.cons.injEq, Expr.symbol.injEq, and_true] at h
  obtain ⟨hkeyword, hbody⟩ := h
  have hsame : some quasi = some other := by
    rw [← ofKeyword?_keyword quasi, hkeyword, ofKeyword?_keyword]
  exact ⟨Option.some.inj hsame, hbody⟩

end Quasi

-- A place in a template that is left open: for a value, or for the items of one among those of a
-- list.
structure Hole where
  body : Expr
  spliced : Bool

namespace Template

mutual

-- A template at a level, its holes from left to right with their values, and what it is with the
-- holes filled. An unquote is a hole at level 1. A quasiquote raises the level of what is inside it,
-- and the two unquotes above level 1 lower it.
inductive Fills : Nat → Expr → List (Hole × Expr) → Expr → Prop
  | hole (body value : Expr) : Fills 1 (Quasi.unquote.form body) [(⟨body, false⟩, value)] value
  | raised (level : Nat) (body result : Expr) (filled : List (Hole × Expr))
      (h : Fills (level + 1) body filled result) :
      Fills level (Quasi.quasiquote.form body) filled (Quasi.quasiquote.form result)
  | lowered (level : Nat) (quasi : Quasi) (body result : Expr) (filled : List (Hole × Expr))
      (hquasi : quasi ≠ .quasiquote) (hlevel : 1 ≤ level) (h : Fills level body filled result) :
      Fills (level + 1) (quasi.form body) filled (quasi.form result)
  | leaf (level : Nat) (e : Expr) (he : ∀ items, e ≠ .list items) : Fills level e [] e
  | list (level : Nat) (items results : List Expr) (filled : List (Hole × Expr))
      (hitems : ∀ quasi body, .list items ≠ Quasi.form quasi body)
      (h : FillsItems level items filled results) : Fills level (.list items) filled (.list results)

-- The items of a list that is no such form. A splice among them is a hole at level 1 as well.
inductive FillsItems : Nat → List Expr → List (Hole × Expr) → List Expr → Prop
  | nil (level : Nat) : FillsItems level [] [] []
  | splice (body : Expr) (values rest results : List Expr) (filled : List (Hole × Expr))
      (h : FillsItems 1 rest filled results) :
      FillsItems 1 (Quasi.splice.form body :: rest) ((⟨body, true⟩, .list values) :: filled)
        (values ++ results)
  | cons (level : Nat) (item result : Expr) (rest results : List Expr)
      (filled later : List (Hole × Expr)) (h : Fills level item filled result)
      (hrest : FillsItems level rest later results) :
      FillsItems level (item :: rest) (filled ++ later) (result :: results)

end

-- What filling the holes asks for, and the answers.
def asked (scope : FrameId) (filled : List (Hole × Expr)) : Trace :=
  filled.map fun (hole, value) => (.evaluate scope hole.body, value)

theorem asked_append (scope : FrameId) (filled later : List (Hole × Expr)) :
    asked scope (filled ++ later) = asked scope filled ++ asked scope later := List.map_append

section

variable {scope : FrameId} {level : Nat}

theorem fill_quasiquote (scope : FrameId) (level : Nat) (body : Expr) :
    fill scope level (Quasi.quasiquote.form body) =
      (do return Quasi.quasiquote.form (← fill scope (level + 1) body)) := by
  simp only [Quasi.form, fill, Quasi.ofKeyword?_keyword]

theorem fill_unquote (scope : FrameId) (body : Expr) :
    fill scope 1 (Quasi.unquote.form body) = Plan.evaluate scope body := by
  simp only [Quasi.form, fill, Quasi.ofKeyword?_keyword, if_pos (Nat.le_refl 1)]

theorem fill_stray (scope : FrameId) (body : Expr) :
    fill scope 1 (Quasi.splice.form body) = Plan.fail .spliceOutsideList := by
  simp only [Quasi.form, fill, Quasi.ofKeyword?_keyword, if_pos (Nat.le_refl 1)]

theorem fill_lowered (scope : FrameId) {quasi : Quasi} (hquasi : quasi ≠ .quasiquote)
    (hlevel : 1 ≤ level) (body : Expr) :
    fill scope (level + 1) (quasi.form body) =
      (do return quasi.form (← fill scope level body)) := by
  have habove : ¬level + 1 ≤ 1 := by omega
  cases quasi with
  | quasiquote => exact absurd rfl hquasi
  | unquote => simp only [Quasi.form, fill, Quasi.ofKeyword?_keyword, if_neg habove, Nat.add_sub_cancel]
  | splice => simp only [Quasi.form, fill, Quasi.ofKeyword?_keyword, if_neg habove, Nat.add_sub_cancel]

theorem fill_list (scope : FrameId) (level : Nat) {items : List Expr}
    (h : ∀ quasi body, .list items ≠ Quasi.form quasi body) :
    fill scope level (.list items) = (do return .list (← fillItems scope level items)) := by
  unfold fill
  split
  · next name body heq =>
    cases heq
    cases hname : Quasi.ofKeyword? name with
    | none => rfl
    | some quasi =>
      rw [Quasi.ofKeyword?_eq_some_iff] at hname
      exact absurd (by rw [hname]; rfl) (h quasi body)
  · next heq =>
    cases heq
    rfl
  · next hlist =>
    exact absurd rfl (hlist items)

theorem fill_leaf (scope : FrameId) (level : Nat) {e : Expr} (h : ∀ items, e ≠ .list items) :
    fill scope level e = pure e := by
  cases e with
  | list items => exact absurd rfl (h items)
  | _ => rfl

theorem fillItems_splice (scope : FrameId) (body : Expr) (rest : List Expr) :
    fillItems scope 1 (Quasi.splice.form body :: rest) = (do
      match ← Plan.evaluate scope body with
      | .list items => return items ++ (← fillItems scope 1 rest)
      | _ => Plan.fail .spliceNotList) := by
  rw [Quasi.form, fillItems]
  exact if_pos ⟨Quasi.ofKeyword?_keyword .splice, Nat.le_refl 1⟩

theorem fillItems_cons (scope : FrameId) {item : Expr} (rest : List Expr)
    (h : level ≤ 1 → ∀ body, item ≠ Quasi.splice.form body) :
    fillItems scope level (item :: rest) = (do
      let value ← fill scope level item
      return value :: (← fillItems scope level rest)) := by
  rw [fillItems.eq_def]
  split
  · next heq => cases heq
  · next name body rest heq =>
    cases heq
    split
    · next hsplice =>
      obtain ⟨hname, hlevel⟩ := hsplice
      rw [Quasi.ofKeyword?_eq_some_iff] at hname
      exact absurd (by rw [hname]; rfl) (h hlevel body)
    · rfl
  · next heq =>
    cases heq
    rfl

-- At level 1 a splice is filled among the items of a list and nowhere else.
theorem Fills.ne_splice {item result : Expr} {filled : List (Hole × Expr)}
    (h : Fills level item filled result) (hlevel : level ≤ 1) (body : Expr) :
    item ≠ Quasi.splice.form body := by
  intro heq
  cases h with
  | hole => cases (Quasi.form_inj heq).1
  | raised => cases (Quasi.form_inj heq).1
  | lowered => omega
  | leaf _ _ he => exact he _ heq
  | list _ items _ _ hitems => exact hitems .splice body heq

mutual

-- Where the holes are filled so, the plan asks for their values and is given them.
theorem Fills.endsIn {level : Nat} {template result : Expr}
    {filled : List (Hole × Expr)} (h : Fills level template filled result) :
    (fill scope level template).EndsIn (asked scope filled) result := by
  match h with
  | .hole body value =>
    rw [fill_unquote]
    exact Plan.endsIn_evaluate_iff.mpr rfl
  | .raised level body result filled h =>
    rw [fill_quasiquote]
    exact Plan.endsIn_map_iff.mpr ⟨result, h.endsIn, rfl⟩
  | .lowered level quasi body result filled hquasi hlevel h =>
    rw [fill_lowered scope hquasi hlevel]
    exact Plan.endsIn_map_iff.mpr ⟨result, h.endsIn, rfl⟩
  | .leaf level e he =>
    rw [fill_leaf scope level he]
    exact Plan.endsIn_pure_iff.mpr ⟨rfl, rfl⟩
  | .list level items results filled hitems h =>
    rw [fill_list scope level hitems]
    exact Plan.endsIn_map_iff.mpr ⟨results, h.endsIn, rfl⟩

theorem FillsItems.endsIn {level : Nat} {items results : List Expr}
    {filled : List (Hole × Expr)} (h : FillsItems level items filled results) :
    (fillItems scope level items).EndsIn (asked scope filled) results := by
  match h with
  | .nil level => exact Plan.endsIn_pure_iff.mpr ⟨rfl, rfl⟩
  | .splice body values rest results filled h =>
    rw [fillItems_splice]
    have hvalue : (Plan.evaluate scope body).EndsIn [(.evaluate scope body, .list values)]
      (.list values) := Plan.endsIn_evaluate_iff.mpr rfl
    have hrest : (do return values ++ (← fillItems scope 1 rest) : Plan (List Expr)).EndsIn
        (asked scope filled) (values ++ results) :=
      Plan.endsIn_map_iff.mpr ⟨results, h.endsIn, rfl⟩
    exact hvalue.bind hrest
  | .cons level item result rest results filled later h hrest =>
    rw [fillItems_cons scope rest fun hlevel => h.ne_splice hlevel, asked_append]
    have hlater : (do return result :: (← fillItems scope level rest) : Plan (List Expr)).EndsIn
        (asked scope later) (result :: results) :=
      Plan.endsIn_map_iff.mpr ⟨results, hrest.endsIn, rfl⟩
    exact h.endsIn.bind hlater

end

end

-- A template is a form or a list or neither, and an item of a list is a splice at level 1 or none.
theorem form_induct (template : Nat → Expr → Prop) (items : Nat → List Expr → Prop)
    (hole : ∀ body, template 1 (Quasi.unquote.form body))
    (stray : ∀ body, template 1 (Quasi.splice.form body))
    (raised : ∀ level body, template (level + 1) body →
      template level (Quasi.quasiquote.form body))
    (lowered : ∀ level quasi body, quasi ≠ .quasiquote → 1 ≤ level → template level body →
      template (level + 1) (Quasi.form quasi body))
    (leaf : ∀ level e, (∀ es, e ≠ .list es) → template level e)
    (list : ∀ level es, (∀ quasi body, .list es ≠ Quasi.form quasi body) → items level es →
      template level (.list es))
    (nil : ∀ level, items level [])
    (splice : ∀ body rest, items 1 rest → items 1 (Quasi.splice.form body :: rest))
    (cons : ∀ level e rest, (level ≤ 1 → ∀ body, e ≠ Quasi.splice.form body) → template level e →
      items level rest → items level (e :: rest)) :
    (∀ level e, 1 ≤ level → template level e) ∧ ∀ level es, 1 ≤ level → items level es := by
  have hlowered : ∀ level quasi body, quasi ≠ .quasiquote → ¬level ≤ 1 → template (level - 1) body →
      template level (Quasi.form quasi body) := by
    intro level quasi body hquasi hlevel h
    obtain ⟨lower, rfl⟩ : ∃ lower, level = lower + 1 := ⟨level - 1, by omega⟩
    exact lowered lower quasi body hquasi (by omega) h
  apply fill.mutual_induct
  case case1 =>
    intro level name body hname ih hlevel
    rw [Quasi.ofKeyword?_eq_some_iff.mp hname]
    exact raised level body (ih (by omega))
  case case2 =>
    intro level name body hname hle hlevel
    rw [Quasi.ofKeyword?_eq_some_iff.mp hname, Nat.le_antisymm hle hlevel]
    exact hole body
  case case3 =>
    intro level name body hname hle ih hlevel
    rw [Quasi.ofKeyword?_eq_some_iff.mp hname]
    exact hlowered level .unquote body (by decide) hle (ih (by omega))
  case case4 =>
    intro level name body hname hle hlevel
    rw [Quasi.ofKeyword?_eq_some_iff.mp hname, Nat.le_antisymm hle hlevel]
    exact stray body
  case case5 =>
    intro level name body hname hle ih hlevel
    rw [Quasi.ofKeyword?_eq_some_iff.mp hname]
    exact hlowered level .splice body (by decide) hle (ih (by omega))
  case case6 =>
    intro level name body hname ih hlevel
    refine list level _ (fun quasi other heq => ?_) (ih hlevel)
    rw [Quasi.form, Expr.list.injEq, List.cons.injEq, Expr.symbol.injEq] at heq
    rw [heq.1, Quasi.ofKeyword?_keyword] at hname
    cases hname
  case case7 =>
    intro level es hpair ih hlevel
    exact list level es (fun quasi body heq => hpair _ _ (Expr.list.inj heq)) (ih hlevel)
  case case8 => exact fun level e _ hlist _ => leaf level e hlist
  case case9 => exact fun level _ => nil level
  case case10 =>
    rintro level name body rest ⟨hname, hle⟩ ih hlevel
    rw [Quasi.ofKeyword?_eq_some_iff.mp hname, Nat.le_antisymm hle hlevel]
    exact splice body rest (Nat.le_antisymm hle hlevel ▸ ih hlevel)
  case case11 =>
    intro level name body rest hsplice ih ihrest hlevel
    refine cons level _ rest (fun hle other heq => hsplice ⟨?_, hle⟩) (ih hlevel) (ihrest hlevel)
    rw [Quasi.form, Expr.list.injEq, List.cons.injEq, Expr.symbol.injEq] at heq
    exact Quasi.ofKeyword?_eq_some_iff.mpr heq.1
  case case12 =>
    intro level e rest hpair ih ihrest hlevel
    exact cons level e rest (fun _ body heq => hpair _ _ heq) (ih hlevel) (ihrest hlevel)

-- What a plan that ends has asked for are the values of the holes.
theorem exists_fills (scope : FrameId) :
    (∀ level template, 1 ≤ level → ∀ trace result,
      (fill scope level template).EndsIn trace result →
        ∃ filled, Fills level template filled result ∧ trace = asked scope filled) ∧
      ∀ level items, 1 ≤ level → ∀ trace results,
        (fillItems scope level items).EndsIn trace results →
          ∃ filled, FillsItems level items filled results ∧ trace = asked scope filled := by
  refine form_induct _ _ ?hole ?stray ?raised ?lowered ?leaf ?list ?nil ?splice ?cons
  case hole =>
    intro body trace result h
    rw [fill_unquote, Plan.endsIn_evaluate_iff] at h
    exact ⟨_, .hole body result, h⟩
  case stray =>
    intro body trace result h
    rw [fill_stray] at h
    exact absurd h Plan.not_endsIn_fail
  case raised =>
    intro level body ih trace result h
    rw [fill_quasiquote] at h
    obtain ⟨inner, hinner, rfl⟩ := Plan.endsIn_map_iff.mp h
    obtain ⟨filled, hfilled, rfl⟩ := ih trace inner hinner
    exact ⟨filled, .raised level body inner filled hfilled, rfl⟩
  case lowered =>
    intro level quasi body hquasi hlevel ih trace result h
    rw [fill_lowered scope hquasi hlevel] at h
    obtain ⟨inner, hinner, rfl⟩ := Plan.endsIn_map_iff.mp h
    obtain ⟨filled, hfilled, rfl⟩ := ih trace inner hinner
    exact ⟨filled, .lowered level quasi body inner filled hquasi hlevel hfilled, rfl⟩
  case leaf =>
    intro level e he trace result h
    rw [fill_leaf scope level he, Plan.endsIn_pure_iff] at h
    obtain ⟨rfl, rfl⟩ := h
    exact ⟨[], .leaf level e he, rfl⟩
  case list =>
    intro level es hes ih trace result h
    rw [fill_list scope level hes] at h
    obtain ⟨results, hresults, rfl⟩ := Plan.endsIn_map_iff.mp h
    obtain ⟨filled, hfilled, rfl⟩ := ih trace results hresults
    exact ⟨filled, .list level es results filled hes hfilled, rfl⟩
  case nil =>
    intro level trace results h
    obtain ⟨rfl, rfl⟩ := Plan.endsIn_pure_iff.mp h
    exact ⟨[], .nil level, rfl⟩
  case splice =>
    intro body rest ih trace results h
    rw [fillItems_splice] at h
    obtain ⟨first, later, value, rfl, hvalue, hlater⟩ := Plan.exists_of_endsIn_bind h
    obtain rfl := Plan.endsIn_evaluate_iff.mp hvalue
    cases value with
    | list values =>
      obtain ⟨others, hothers, rfl⟩ := Plan.endsIn_map_iff.mp hlater
      obtain ⟨filled, hfilled, rfl⟩ := ih later others hothers
      exact ⟨_, .splice body values rest others filled hfilled, rfl⟩
    | _ => cases hlater
  case cons =>
    intro level e rest hsplice ih ihrest trace results h
    rw [fillItems_cons scope rest hsplice] at h
    obtain ⟨first, later, value, rfl, hvalue, hlater⟩ := Plan.exists_of_endsIn_bind h
    obtain ⟨filled, hfilled, rfl⟩ := ih first value hvalue
    obtain ⟨others, hothers, rfl⟩ := Plan.endsIn_map_iff.mp hlater
    obtain ⟨more, hmore, rfl⟩ := ihrest later others hothers
    exact ⟨filled ++ more, .cons level e value rest others filled more hfilled hmore,
      (asked_append scope filled more).symm⟩

theorem Fills.of_form {level : Nat} {quasi : Quasi} {body result : Expr}
    {filled : List (Hole × Expr)} (h : Fills level (quasi.form body) filled result) :
    (level = 1 ∧ quasi = .unquote ∧ filled = [(⟨body, false⟩, result)]) ∨
      ∃ inside inner, Fills inside body filled inner ∧
        (quasi = .quasiquote ∧ inside = level + 1 ∨
          quasi ≠ .quasiquote ∧ 1 ≤ inside ∧ inside + 1 = level) := by
  generalize heq : quasi.form body = template at h
  cases h with
  | hole =>
    obtain ⟨rfl, rfl⟩ := Quasi.form_inj heq
    exact .inl ⟨rfl, rfl, rfl⟩
  | raised level body inner filled h =>
    obtain ⟨rfl, rfl⟩ := Quasi.form_inj heq
    exact .inr ⟨level + 1, inner, h, .inl ⟨rfl, rfl⟩⟩
  | lowered level quasi body inner filled hquasi hlevel h =>
    obtain ⟨rfl, rfl⟩ := Quasi.form_inj heq
    exact .inr ⟨level, inner, h, .inr ⟨hquasi, hlevel, rfl⟩⟩
  | leaf _ _ he => exact absurd heq.symm (he _)
  | list _ _ _ _ hitems => exact absurd heq.symm (hitems quasi body)

-- Which holes there are is a matter of the template alone.
theorem exists_holes :
    (∀ level template, 1 ≤ level → ∃ holes, ∀ filled result,
      Fills level template filled result → filled.map Prod.fst = holes) ∧
      ∀ level items, 1 ≤ level → ∃ holes, ∀ filled results,
        FillsItems level items filled results → filled.map Prod.fst = holes := by
  refine form_induct _ _ ?hole ?stray ?raised ?lowered ?leaf ?list ?nil ?splice ?cons
  case hole =>
    intro body
    refine ⟨[⟨body, false⟩], fun filled result h => ?_⟩
    rcases h.of_form with ⟨-, -, rfl⟩ | ⟨inside, inner, -, ⟨hquasi, -⟩ | ⟨-, hinside, hlevel⟩⟩
    · rfl
    · cases hquasi
    · omega
  case stray =>
    intro body
    exact ⟨[], fun filled result h => absurd rfl (h.ne_splice (Nat.le_refl 1) body)⟩
  case raised =>
    intro level body ⟨holes, ih⟩
    refine ⟨holes, fun filled result h => ?_⟩
    rcases h.of_form with ⟨-, hquasi, -⟩ | ⟨inside, inner, hbody, ⟨-, rfl⟩ | ⟨hquasi, -⟩⟩
    · cases hquasi
    · exact ih filled inner hbody
    · exact absurd rfl hquasi
  case lowered =>
    intro level quasi body hquasi hlevel ⟨holes, ih⟩
    refine ⟨holes, fun filled result h => ?_⟩
    rcases h.of_form with ⟨hone, -, -⟩ | ⟨inside, inner, hbody, ⟨hsame, -⟩ | ⟨-, -, hinside⟩⟩
    · omega
    · exact absurd hsame hquasi
    · obtain rfl : inside = level := by omega
      exact ih filled inner hbody
  case leaf =>
    intro level e he
    refine ⟨[], fun filled result h => ?_⟩
    cases h with
    | leaf => rfl
    | list _ items => exact absurd rfl (he items)
    | _ => exact absurd rfl (he _)
  case list =>
    intro level es hes ⟨holes, ih⟩
    refine ⟨holes, fun filled result h => ?_⟩
    generalize heq : Expr.list es = template at h
    cases h with
    | list level items results filled _ h =>
      cases heq
      exact ih filled results h
    | leaf _ _ he => exact absurd heq.symm (he es)
    | _ => exact absurd heq (hes _ _)
  case nil =>
    intro level
    refine ⟨[], fun filled results h => ?_⟩
    cases h
    rfl
  case splice =>
    intro body rest ⟨holes, ih⟩
    refine ⟨⟨body, true⟩ :: holes, fun filled results h => ?_⟩
    generalize heq : Quasi.splice.form body = item at h
    cases h with
    | splice _ values _ results filled h =>
      obtain ⟨-, rfl⟩ := Quasi.form_inj heq
      exact congrArg (⟨body, true⟩ :: ·) (ih filled results h)
    | cons _ _ _ _ _ _ _ h => exact absurd heq.symm (h.ne_splice (Nat.le_refl 1) body)
  case cons =>
    intro level e rest hsplice ⟨holes, ih⟩ ⟨more, ihrest⟩
    refine ⟨holes ++ more, fun filled results h => ?_⟩
    cases h with
    | splice body => exact absurd rfl (hsplice (Nat.le_refl 1) body)
    | cons _ _ result _ results filled later h hrest =>
      rw [List.map_append, ih filled result h, ihrest later results hrest]

end Template

namespace Eval

open Template

-- Evaluating a template evaluates its holes from left to right, each once and nothing else, and if
-- all have values the result is the template with the holes filled.
theorem quasiquote_fills_holes (template : Expr) :
    (∃ holes, ∀ filled result, Fills 1 template filled result → filled.map Prod.fst = holes) ∧
      ∀ (limit : Int) (room : Nat) (scope : FrameId) (machine : Machine),
        ¬limit ≤ machine.depth →
        let whole := Quasi.quasiquote.form template
        ∀ result after,
          (evalWithin limit (room + 1) scope whole).on machine = (.ok result, after) ↔
          ∃ filled moments last, Fills 1 template filled result ∧
            (asked scope filled).Performed (watched limit room)
              { machine with depth := machine.depth + 1 } moments last ∧
            after = { last with depth := last.depth - 1 } ∧
            momentsWithin limit (room + 1) scope whole machine =
              .began scope whole machine :: moments := by
  refine ⟨exists_holes.1 1 template (Nat.le_refl 1), ?_⟩
  intro limit room scope machine hlimit whole result after
  let deeper : Machine := { machine with depth := machine.depth + 1 }
  have hstep : step scope whole = fill scope 1 template := rfl
  have hmoments : momentsWithin limit (room + 1) scope whole machine =
      .began scope whole machine :: (fill scope 1 template).moments (watched limit room) deeper := by
    rw [momentsWithin, if_neg hlimit, hstep]
    rfl
  rw [on_evalWithin_succ hlimit, EvalM.on_nested, hstep, hmoments]
  constructor
  · intro h
    rcases hrun : ((fill scope 1 template).run (evalWithin limit room)).on deeper with ⟨value, last⟩
    rw [hrun] at h
    cases h
    obtain ⟨trace, htrace, hperformed⟩ := Plan.exists_performed (watched limit room) hrun
    obtain ⟨filled, hfilled, rfl⟩ :=
      (exists_fills scope).1 1 template (Nat.le_refl 1) trace result htrace
    exact ⟨filled, _, last, hfilled, hperformed, rfl, rfl⟩
  · rintro ⟨filled, moments, last, hfilled, hperformed, rfl, -⟩
    obtain ⟨hrun, -⟩ := hfilled.endsIn.on_run hperformed
    have hrun' : ((fill scope 1 template).run (evalWithin limit room)).on deeper =
      (.ok result, last) := hrun
    rw [hrun']

theorem quasiquote_fills_holes_of_nested :
    let hole (e : Expr) : Expr := Quasi.unquote.form e
    let sum : Expr := .list [.symbol "+", .number (.int 1), .number (.int 2)]
    let names : Expr := .list [.symbol "quote", .list [.symbol "x", .symbol "y"]]
    let inner : Expr := .list [.symbol "b", hole (.list [.symbol "c", hole sum, hole sum])]
    let template : Expr := .list [.symbol "a", Quasi.splice.form names, hole sum,
      Quasi.quasiquote.form inner]
    let whole := Quasi.quasiquote.form template
    ¬(50 : Int) ≤ Machine.start.depth ∧
      ∃ result after, (evalWithin 50 9 0 whole).on Machine.start = (.ok result, after) ∧
        result.render = "(a x y 3 (quasiquote (b (unquote (c 3 3)))))" ∧
        ∃ filled moments last, Fills 1 template filled result ∧
          (asked 0 filled).Performed (watched 50 8) { Machine.start with depth := 1 } moments last ∧
          after = { last with depth := last.depth - 1 } ∧
          momentsWithin 50 9 0 whole Machine.start = .began 0 whole Machine.start :: moments := by
  intro hole sum names inner template whole
  have hlimit : ¬(50 : Int) ≤ Machine.start.depth := by decide
  have hrender : ((evalWithin 50 9 0 whole).on Machine.start).1.toOption.map Expr.render =
      some "(a x y 3 (quasiquote (b (unquote (c 3 3)))))" := by decide +kernel
  rcases hrun : (evalWithin 50 9 0 whole).on Machine.start with ⟨failure | result, after⟩
  · rw [hrun] at hrender
    cases hrender
  · rw [hrun] at hrender
    have hfills := ((quasiquote_fills_holes template).2 50 8 0 .start hlimit result after).mp hrun
    exact ⟨hlimit, result, after, rfl, Option.some.inj hrender, hfills⟩

end Eval

end Lisplet
