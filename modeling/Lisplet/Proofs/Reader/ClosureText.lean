import Lisplet.Proofs.Eval.Run
import Lisplet.Proofs.Reader.Legible
import Lisplet.Proofs.Reader.Sequence

namespace Lisplet

namespace Expr

-- The form whose value is a closure with these parameters and this body.
def lambdaForm (params : List String) (body : Expr) : Expr :=
  .list [.symbol "lambda", .list (params.map .symbol), body]

theorem render_closure (params : List String) (body : Expr) (scope : FrameId) :
    (closure params body scope).render = (lambdaForm params body).render := by
  have hparams : renderItems (params.map .symbol) = " ".intercalate params := by
    have hnames : (params.map Expr.symbol).map render = params := by
      rw [List.map_map]
      exact List.map_id params
    rw [Reader.renderItems_eq_intercalate, hnames]
  rw [← String.toList_inj]
  simp [lambdaForm, render, renderItems, hparams]

theorem Readable.lambdaForm {params : List String} {body : Expr}
    (hparams : ∀ param ∈ params, IsName param) (hbody : body.Readable) :
    (lambdaForm params body).Readable := by
  have hkeyword : IsName "lambda" := by decide
  have hlist : (Expr.list (params.map .symbol)).Readable := by
    refine .list _ fun item hitem => ?_
    obtain ⟨param, hparam, rfl⟩ := List.mem_map.mp hitem
    exact .symbol param (hparams param hparam)
  exact .list _ (by simpa using ⟨.symbol "lambda" hkeyword, hlist, hbody⟩)

end Expr

theorem Eval.step_lambdaForm (scope : FrameId) (params : List String) (body : Expr) :
    step scope (Expr.lambdaForm params body) = pure (.closure params body scope) := by
  have hparams : (params.map Expr.symbol).mapM Expr.symbol? = some params :=
    calc (params.map Expr.symbol).mapM Expr.symbol?
      _ = params.mapM fun param => some param := List.mapM_map
      _ = some (params.map fun param => param) := List.mapM_pure
      _ = some params := by rw [List.map_id']
  have hkeyword : Special.ofKeyword? "lambda" = some .lambda := rfl
  simp only [Expr.lambdaForm, step, hkeyword, special, lambda, hparams]

-- Evaluation of the form needs no more depth than one and has no effect.
theorem Eval.on_evalWithin_lambdaForm {limit : Int} {machine : Machine}
    (hlimit : machine.depth < limit) (room : Nat) (scope : FrameId) (params : List String)
    (body : Expr) :
    (evalWithin limit (room + 1) scope (Expr.lambdaForm params body)).on machine =
      (.ok (.closure params body scope), machine) := by
  rw [on_evalWithin_succ (by omega), step_lambdaForm]
  rfl

namespace Reader

-- The first of all expressions is the one that is read if one is asked for.
theorem parse_of_parseAll {table : Shorthands} {text : String} {e : Expr} {rest : List Expr}
    (h : parseAll table text = .ok (e :: rest)) : parse table text = .ok e := by
  have hsequence := Input.sequence_of_parseAll h
  rw [Input.sequence_eq] at hsequence
  rw [parse]
  rcases hread : (Input.ofText text).read table with ⟨error | _ | first, after⟩
  · rw [hread] at hsequence
    cases hsequence
  · rw [hread] at hsequence
    cases hsequence
  · rw [hread] at hsequence
    cases (List.cons.inj (congrArg Sequence.forms hsequence)).1
    rfl

theorem parse_render {e : Expr} (h : e.Readable) : parse .quotes e.render = .ok e := by
  have hall : parseAll .quotes (Expr.renderItems [e]) = .ok [e] :=
    parseAll_renderItems (by simpa using h)
  exact parse_of_parseAll (by simpa only [Expr.renderItems] using hall)

-- The text of a closure is read as a form, and evaluation of the form where the closure was made
-- gives the closure back: called by any evaluator on any machine, the two do the same.
theorem closure_reads_back (params : List String) (body : Expr) (scope : FrameId)
    (hparams : ∀ param ∈ params, IsName param) (hbody : body.Readable) :
    let closure := Expr.closure params body scope
    closure.printable ∧ ∃ source, parse .quotes closure.render = .ok source ∧
      ∀ (limit : Int) (room : Nat) (machine : Machine), machine.depth < limit →
        ∃ again, (Eval.evalWithin limit (room + 1) scope source).on machine =
            (.ok again, machine) ∧ again = .closure params body scope ∧
          ∀ (evaluate : Rule) (args : List Expr) (later : Machine),
            (Eval.apply evaluate again args).on later =
              (Eval.apply evaluate closure args).on later := by
  intro closure
  refine ⟨hbody.printable, Expr.lambdaForm params body, ?_, fun limit room machine hlimit => ?_⟩
  · rw [Expr.render_closure]
    exact parse_render (.lambdaForm hparams hbody)
  · exact ⟨closure, Eval.on_evalWithin_lambdaForm hlimit room scope params body, rfl,
      fun _ _ _ => rfl⟩

-- Of two parameters with one name the last gets its argument, before and after.
theorem closure_reads_back_with_repeated_parameter :
    let zero : Expr := .number (.float (.signed true 0))
    let body : Expr := .list [.symbol "cons", .symbol "x",
      .list [.symbol "quote", .list [.str "(;\\\"", zero]]]
    let closure : Expr := .closure ["x", "x"] body 0
    let call (procedure : Expr) :=
      ((Eval.apply (Eval.evalWithin 9 9) procedure [.bool true, .bool false]).on Machine.start).1
    closure.render = "(lambda (x x) (cons x (quote (\"(;\\\"\" -0.0))))" ∧
      ∃ source again, parse .quotes closure.render = .ok source ∧
        (Eval.evalWithin 1 1 0 source).on Machine.start = (.ok again, Machine.start) ∧
        (call again).toOption.map Expr.render = some "(false \"(;\\\"\" -0.0)" := by
  intro zero body closure call
  have hname : IsName "x" := by decide
  have hcons : IsName "cons" := by decide
  have hquote : IsName "quote" := by decide
  have hstring : Token.StringBody "(;\\\"".toList :=
    .plain '(' _ (by decide) (by decide) (by decide) <|
      .plain ';' _ (by decide) (by decide) (by decide) <| .escaped '"' _ (by decide) .nil
  have hdata : (Expr.list [.str "(;\\\"", zero]).Readable :=
    .list _ (by simpa using ⟨.str _ hstring, .float (.signed true 0) (by rfl)⟩)
  have hquoted : (Expr.list [.symbol "quote", .list [.str "(;\\\"", zero]]).Readable :=
    .list _ (by simpa using ⟨.symbol "quote" hquote, hdata⟩)
  have hbody : body.Readable :=
    .list _ (by simpa using ⟨.symbol "cons" hcons, .symbol "x" hname, hquoted⟩)
  obtain ⟨-, source, hsource, heval⟩ :=
    closure_reads_back ["x", "x"] body 0 (by simpa using hname) hbody
  obtain ⟨again, hrun, -, hsame⟩ := heval 1 0 Machine.start (by decide)
  refine ⟨by decide +kernel, source, again, hsource, hrun, ?_⟩
  have hcall : call again = call closure :=
    congrArg Prod.fst (hsame (Eval.evalWithin 9 9) [.bool true, .bool false] Machine.start)
  rw [hcall]
  decide +kernel

end Reader

end Lisplet
