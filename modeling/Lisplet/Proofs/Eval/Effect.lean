import Lisplet.Proofs.Eval.Request
import Lisplet.Proofs.Eval.Timeline
import Lisplet.Proofs.Store.Effect

namespace Lisplet

-- A definition of the name stands somewhere in the expression.
def Expr.Defines (name : String) (whole : Expr) : Prop :=
  ∃ e, (Expr.list [.symbol "def", .symbol name, e]).OccursIn whole

theorem Expr.Defines.of_occursIn {name : String} {part whole : Expr} (h : part.Defines name)
    (hpart : part.OccursIn whole) : whole.Defines name := by
  obtain ⟨e, he⟩ := h
  exact ⟨e, he.trans hpart⟩

-- Evaluation that touches its own scope alone, and there only what its expression defines.
def Rule.Local (evaluate : Rule) : Prop :=
  ∀ scope e (machine : Machine), machine.store.Effect scope (Expr.Defines · e)
    ((evaluate scope e).on machine).2.store

theorem Request.perform_effect {evaluate : Rule} (hlocal : evaluate.Local) {scope : FrameId}
    {whole : Expr} {request : Request} (h : request.IsAbout scope whole) (machine : Machine) :
    machine.store.Effect scope (Expr.Defines · whole)
      ((request.perform evaluate).on machine).2.store := by
  cases request with
  | lookup s name =>
    rw [perform, EvalM.on_lookup]
    split <;> exact .refl _ _ _
  | define s name value =>
    obtain ⟨rfl, e, rfl⟩ := h
    exact .define ⟨e, .whole⟩ value machine.store
  | evaluate s part =>
    obtain ⟨rfl, hpart⟩ := h
    exact (hlocal s part machine).mono fun name hname => hname.of_occursIn hpart
  | call params body captured args =>
    rw [on_perform_call]
    split
    · next inner store henter =>
      obtain ⟨-, rfl, rfl⟩ := Store.exists_alloc_of_enter? henter
      exact .of_alloc
        (hlocal machine.store.next body { machine with store := machine.store.alloc _ })
    · exact .refl _ _ _

namespace Eval

theorem run_effect {evaluate : Rule} (hlocal : evaluate.Local) {scope : FrameId} {whole : Expr}
    {plan : Plan α} (h : plan.Asks (Request.IsAbout scope whole)) (machine : Machine) :
    machine.store.Effect scope (Expr.Defines · whole) ((plan.run evaluate).on machine).2.store :=
  Plan.run_rel
    (R := fun before after => before.store.Effect scope (Expr.Defines · whole) after.store)
    (fun machine => .refl _ _ machine.store) .trans
    (h.imp fun _ hrequest machine => Request.perform_effect hlocal hrequest machine) machine

theorem evalWithin_local (limit : Int) (room : Nat) : Rule.Local (evalWithin limit room) := by
  induction room using Nat.strongRecOn with
  | ind room ih =>
    intro scope e machine
    rcases stops_or_steps limit room scope e machine with
      ⟨failure, after, hrun, hstore, -⟩ | ⟨less, hless, hrun, -⟩
    · rw [hrun, hstore]
      exact .refl _ _ _
    · rw [hrun]
      exact run_effect (ih less hless) (step_asks scope e)
        { machine with depth := machine.depth + 1 }

end Eval

end Lisplet
