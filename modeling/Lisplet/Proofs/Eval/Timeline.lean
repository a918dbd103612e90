import Lisplet.Proofs.Eval.Run

namespace Lisplet

-- What can be seen of a run: an evaluation begins, a name has been bound, or a call has left the
-- scope that was made for it, with a value or without. No store changes in between.
inductive Moment where
  | began (scope : FrameId) (e : Expr) (machine : Machine)
  | bound (scope : FrameId) (name : String) (machine : Machine)
  | left (scope : FrameId) (machine : Machine)

def Moment.machine : Moment → Machine
  | began _ _ machine | bound _ _ machine | left _ machine => machine

def Moment.scope : Moment → FrameId
  | began scope _ _ | bound scope _ _ | left scope _ => scope

-- A rule whose runs are watched.
structure WatchedRule where
  evaluate : Rule
  moments : FrameId → Expr → Machine → List Moment

def Request.moments (watched : WatchedRule) : Request → Machine → List Moment
  | lookup .., _ => []
  | define scope name value, machine =>
    [.bound scope name { machine with store := machine.store.define scope name value }]
  | evaluate scope e, machine => watched.moments scope e machine
  | call params body scope args, machine =>
    match machine.store.enter? params args (some scope) with
    | some (inner, store) =>
      let entered := { machine with store := store }
      watched.moments inner body entered ++
        [.left inner ((watched.evaluate inner body).on entered).2]
    | none => []

def Plan.moments (watched : WatchedRule) : Plan α → Machine → List Moment
  | done _, _ => []
  | fail _, _ => []
  | ask request next, machine =>
    request.moments watched machine ++
      match (request.perform watched.evaluate).on machine with
      | (.ok answer, after) => (next answer).moments watched after
      | (.error _, _) => []

namespace Eval

-- The moments of an evaluation in their order, its own beginning first.
def momentsWithin (limit : Int) : Nat → FrameId → Expr → Machine → List Moment
  | 0, scope, e, machine => [.began scope e machine]
  | room + 1, scope, e, machine =>
    .began scope e machine ::
      if limit ≤ machine.depth then []
      else (step scope e).moments ⟨evalWithin limit room, momentsWithin limit room⟩
        { machine with depth := machine.depth + 1 }

def watched (limit : Int) (room : Nat) : WatchedRule :=
  ⟨evalWithin limit room, momentsWithin limit room⟩

-- A run stops where it begins and leaves the store as it is, or it works through its step with
-- less room.
theorem stops_or_steps (limit : Int) (room : Nat) (scope : FrameId) (e : Expr)
    (machine : Machine) :
    (∃ failure after, (evalWithin limit room scope e).on machine = (.error failure, after) ∧
      after.store = machine.store ∧
      momentsWithin limit room scope e machine = [.began scope e machine]) ∨
    ∃ less < room,
      let deeper : Machine := { machine with depth := machine.depth + 1 }
      (evalWithin limit room scope e).on machine =
        (EvalM.nested ((step scope e).run (evalWithin limit less))).on machine ∧
      momentsWithin limit room scope e machine =
        .began scope e machine :: (step scope e).moments (watched limit less) deeper := by
  by_cases hlimit : limit ≤ machine.depth
  · have hrun := on_evalWithin_of_le hlimit room scope e
    exact .inl ⟨_, _, hrun, rfl, by cases room <;> simp [momentsWithin, hlimit]⟩
  · cases room with
    | zero => exact .inl ⟨_, _, on_evalWithin_zero hlimit scope e, rfl, rfl⟩
    | succ room =>
      have hrun := on_evalWithin_succ hlimit room scope e
      exact .inr ⟨room, Nat.lt_succ_self room, hrun, by simp [momentsWithin, watched, hlimit]⟩

end Eval

-- What a host program has evaluated, and where.
structure Entry where
  limit : Int
  scope : FrameId
  e : Expr

namespace Session

def final (room : Nat) : List Entry → Machine → Machine
  | [], machine => machine
  | ⟨limit, scope, e⟩ :: rest, machine =>
    final room rest ((Eval.evalWithin limit room scope e).on machine).2

-- What the entries come to, each with a value or without.
def outcomes (room : Nat) : List Entry → Machine → List (Except Failure Expr)
  | [], _ => []
  | ⟨limit, scope, e⟩ :: rest, machine =>
    ((Eval.evalWithin limit room scope e).on machine).1 ::
      outcomes room rest ((Eval.evalWithin limit room scope e).on machine).2

def moments (room : Nat) : List Entry → Machine → List Moment
  | [], _ => []
  | ⟨limit, scope, e⟩ :: rest, machine =>
    Eval.momentsWithin limit room scope e machine ++
      moments room rest ((Eval.evalWithin limit room scope e).on machine).2

end Session

end Lisplet
