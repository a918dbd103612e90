import Lisplet.Proofs.Eval.Effect
import Lisplet.Proofs.Eval.Guard
import Lisplet.Proofs.Eval.Mirror
import Lisplet.Proofs.Eval.Reachable

namespace Lisplet

-- No list in it begins as a definition does. Closures are not looked into.
def Expr.DefinitionFree (e : Expr) : Prop :=
  ∀ operands, ¬(Expr.list (.symbol "def" :: operands)).OccursIn e

theorem Expr.DefinitionFree.not_defines {e : Expr} (h : e.DefinitionFree) (name : String) :
    ¬e.Defines name := fun ⟨operand, hdefinition⟩ => h [.symbol name, operand] hdefinition

-- Old scopes keep their numbers, and later ones come after those that were made in between.
def shiftFrom (base shift id : Nat) : Nat := if id < base then id else id + shift

theorem shiftFrom_of_lt {base shift id : Nat} (h : id < base) : shiftFrom base shift id = id :=
  if_pos h

theorem shiftFrom_add {base size : Nat} (h : base ≤ size) (count : Nat) :
    shiftFrom base (size - base) (base + count) = size + count := by
  rw [shiftFrom, if_neg (Nat.not_lt.mpr (Nat.le_add_right base count))]
  omega

theorem strictMono_shiftFrom (base shift : Nat) : StrictMono (shiftFrom base shift) := by
  intro id later h
  simp only [shiftFrom]
  split <;> split <;> omega

-- A scope in which no name may be bound anew binds what it did, as all others do.
theorem Store.Effect.exists_same {scope : FrameId} {store after : Store}
    (h : store.Effect scope (fun _ => False) after) {id : FrameId} {frame : Frame}
    (hframe : store.frame? id = some frame) :
    ∃ same, after.frame? id = some same ∧ same.outer = frame.outer ∧
      ∀ name, same.bindings.find? name = frame.bindings.find? name := by
  by_cases hid : id = scope
  · subst hid
    obtain ⟨same, hsame, hrebinds⟩ := h.own frame hframe
    exact ⟨same, hsame, hrebinds.outer, fun name => hrebinds.other name not_false⟩
  · exact ⟨frame, h.others.frame id frame hframe hid, rfl, fun _ => rfl⟩

-- A store is found again in what became of it if no name was bound anew.
theorem Store.WellFormed.mirrors {scope : FrameId} {store after : Store} (h : store.WellFormed)
    (hpos : 0 < store.next) (heffect : store.Effect scope (fun _ => False) after) :
    store.Mirrors (shiftFrom store.next (after.next - store.next)) (fun _ => True) after where
  mono := strictMono_shiftFrom _ _
  next := shiftFrom_add heffect.others.next_le
  frame id frame hframe := by
    have hid := lt_next_of_frame? hframe
    obtain ⟨same, hsame, houter, hfind⟩ := heffect.exists_same hframe
    refine ⟨same, ?_, ?_, fun name _ => ?_⟩
    · rwa [shiftFrom_of_lt hid]
    · rw [houter]
      cases hlink : frame.outer with
      | none => rfl
      | some outer =>
        have hlt := (h.rooted hpos).forest id frame outer hframe hlink
        exact congrArg some (shiftFrom_of_lt (Nat.lt_trans hlt hid)).symm
    · rw [hfind name]
      cases hfound : frame.bindings.find? name with
      | none => rfl
      | some value =>
        have hvalue := h.captures id frame hframe _ (Bindings.mem_of_find? hfound)
        exact congrArg some (Expr.rename_eq_self _ hvalue fun _ => shiftFrom_of_lt).symm

-- The same value in other scopes, or the same error.
def Alike (f : FrameId → FrameId) : Except Failure Expr → Except Failure Expr → Prop
  | .ok value, .ok other => other = value.rename f ∧ other.render = value.render
  | .error failure, .error other =>
    other.languageKind? = failure.languageKind? ∧ other.message = failure.message
  | _, _ => False

theorem alike_relabel (f : FrameId → FrameId) (result : Except Failure Expr) :
    Alike f result (relabel (Failure.rename f) (Expr.rename f) result) := by
  cases result with
  | ok value => exact ⟨rfl, value.render_rename f⟩
  | error failure => exact ⟨failure.languageKind?_rename f, failure.message_rename f⟩

-- Whether a definition-free expression has been evaluated before makes no difference but to the
-- numbers of the scopes that are made.
theorem Eval.definition_free_goes_unnoticed (limit : Int) (room : Nat) {scope : FrameId}
    {first second : Expr} {machine : Machine} (hstore : machine.store.WellFormed)
    (hscope : scope < machine.store.next) (hfirst : first.DefinitionFree)
    (hsecond : second.Has (.ofScopes (· < machine.store.next))) :
    let between := ((evalWithin limit room scope first).on machine).2
    let later := (evalWithin limit room scope second).on between
    let direct := (evalWithin limit room scope second).on machine
    ∃ f : FrameId → FrameId, Function.Injective f ∧ (∀ id < machine.store.next, f id = id) ∧
      Alike f direct.1 later.1 ∧ ∀ name, later.2.store.lookup? scope name =
        (direct.2.store.lookup? scope name).map (Expr.rename f) := by
  intro between later direct
  have hpos : 0 < machine.store.next := Nat.zero_lt_of_lt hscope
  let t : Traits := .ofScopes fun _ => True
  have hsound : machine.store.Sound t :=
    hstore.sound hpos fun id frame hframe binding hbinding _ =>
      (hstore.captures id frame hframe binding hbinding).mono fun _ _ => trivial
  have heffect : machine.store.Effect scope (fun _ => False) between.store :=
    (evalWithin_local limit room scope first machine).mono hfirst.not_defines
  let f := shiftFrom machine.store.next (between.store.next - machine.store.next)
  have hf : ∀ id < machine.store.next, f id = id := fun _ => shiftFrom_of_lt
  have hbetween : machine.Mirrors f t.name between :=
    ⟨hstore.mirrors hpos heffect, evalWithin_balanced limit room scope first machine⟩
  obtain ⟨hresult, hafter⟩ := watched_mirrors (Traits.closed_ofScopes _) f limit room scope second
    machine between hsound hscope (hsecond.mono fun _ hid => hid) hbetween
  rw [hf scope hscope, Expr.rename_eq_self f hsecond hf] at hresult hafter
  refine ⟨f, (strictMono_shiftFrom _ _).injective, hf, ?_, fun name => ?_⟩
  · have hlater : later.1 = relabel (Failure.rename f) (Expr.rename f) direct.1 := hresult
    rw [hlater]
    exact alike_relabel f direct.1
  · have hname : t.name name := trivial
    have hlookup := hafter.store.lookup? scope hname
    rwa [hf scope hscope] at hlookup

-- The closure that is called first defines a name of its own, and the one that is the value next
-- captures a scope that has another number because of it.
theorem Eval.definition_free_goes_unnoticed_by_closure :
    let lambda (param : String) (body : Expr) : Expr :=
      .list [.symbol "lambda", .list [.symbol param], body]
    let setUp : Expr := .list [.symbol "def", .symbol "f",
      lambda "x" (.list [.symbol "def", .symbol "y", .symbol "x"])]
    let machine := ((evalWithin 50 9 0 setUp).on Machine.start).2
    let first : Expr := .list [.symbol "f", .number (.int 1)]
    let second : Expr := .list [lambda "z" (lambda "w" (.symbol "z")), .number (.int 3)]
    let between := ((evalWithin 50 9 0 first).on machine).2
    let later := (evalWithin 50 9 0 second).on between
    let direct := (evalWithin 50 9 0 second).on machine
    (between.store.next = 2 ∧ direct.1.toOption.map Expr.render = some "(lambda (w) z)") ∧
      ∃ f : FrameId → FrameId, Function.Injective f ∧ (∀ id < machine.store.next, f id = id) ∧
        Alike f direct.1 later.1 ∧ ∀ name, later.2.store.lookup? 0 name =
          (direct.2.store.lookup? 0 name).map (Expr.rename f) := by
  intro lambda setUp machine first second between later direct
  have hnext : machine.store.next = 1 := rfl
  have hreachable : Reachable machine.store := .eval 50 9 0 setUp Machine.start .start (by decide)
    (by simp [setUp, lambda, Expr.ClosureFree, Traits.ofScopes])
  have hfirst : first.DefinitionFree := by simp [first, Expr.DefinitionFree]
  have hsecond : second.Has (.ofScopes (· < machine.store.next)) := by
    simp [second, lambda, Traits.ofScopes]
  exact ⟨by decide +kernel, definition_free_goes_unnoticed 50 9 hreachable.sound.grounded_captures
    (by rw [hnext]; decide) hfirst hsecond⟩

end Lisplet
