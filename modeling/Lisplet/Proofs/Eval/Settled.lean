import Lisplet.Proofs.Eval.Effect

namespace Lisplet

-- The frame of a call that has ended is still the same.
def Moment.Settled (store : Store) : Moment → Prop
  | began .. | bound .. => True
  | left scope machine =>
    ∃ frame, machine.store.frame? scope = some frame ∧ store.frame? scope = some frame

theorem Moment.Settled.of_keeps {scopes : FrameId → Prop} {before after : Store} {moment : Moment}
    (h : moment.Settled before) (hkeeps : before.KeepsOutside scopes after)
    (hscope : ∀ scope machine, moment = .left scope machine → ¬scopes scope) :
    moment.Settled after := by
  cases moment with
  | began => trivial
  | bound => trivial
  | left scope machine =>
    obtain ⟨frame, hframe, hbefore⟩ := h
    exact ⟨frame, hframe, hkeeps.frame scope frame hbefore (hscope scope machine rfl)⟩

-- Part of a run that works in some scopes. Calls get scopes of their own, and these are settled
-- when the calls have ended.
structure Chronicle (scopes : FrameId → Prop) (before : Store) (moments : List Moment)
    (after : Store) : Prop where
  reaches : ∀ moment ∈ moments, before.KeepsOutside scopes moment.machine.store
  keeps : before.KeepsOutside scopes after
  fresh : ∀ id machine, .left id machine ∈ moments → before.next ≤ id
  settles : moments.Pairwise fun earlier later => earlier.Settled later.machine.store
  settled : ∀ moment ∈ moments, moment.Settled after

namespace Chronicle

variable {scopes : FrameId → Prop} {before middle after : Store} {moments later : List Moment}

theorem nil (h : before.KeepsOutside scopes after) : Chronicle scopes before [] after :=
  ⟨by simp, h, by simp, .nil, by simp⟩

theorem append (hscopes : ∀ id, scopes id → id < before.next)
    (h : Chronicle scopes before moments middle) (h' : Chronicle scopes middle later after) :
    Chronicle scopes before (moments ++ later) after where
  reaches moment hmoment := by
    rcases List.mem_append.mp hmoment with hmoment | hmoment
    · exact h.reaches moment hmoment
    · exact h.keeps.trans (h'.reaches moment hmoment)
  keeps := h.keeps.trans h'.keeps
  fresh id machine hleft := by
    rcases List.mem_append.mp hleft with hleft | hleft
    · exact h.fresh id machine hleft
    · exact Nat.le_trans h.keeps.next_le (h'.fresh id machine hleft)
  settles := by
    refine List.pairwise_append.mpr ⟨h.settles, h'.settles, fun moment hmoment next hnext => ?_⟩
    exact (h.settled moment hmoment).of_keeps (h'.reaches next hnext) fun id machine hleft hid =>
      Nat.not_le_of_lt (hscopes id hid) (h.fresh id machine (hleft ▸ hmoment))
  settled moment hmoment := by
    rcases List.mem_append.mp hmoment with hmoment | hmoment
    · exact (h.settled moment hmoment).of_keeps h'.keeps fun id machine hleft hid =>
        Nat.not_le_of_lt (hscopes id hid) (h.fresh id machine (hleft ▸ hmoment))
    · exact h'.settled moment hmoment

theorem began {machine : Machine} (scope : FrameId) (e : Expr)
    (h : Chronicle scopes machine.store moments after) :
    Chronicle scopes machine.store (.began scope e machine :: moments) after where
  reaches moment hmoment := by
    rcases List.mem_cons.mp hmoment with rfl | hmoment
    · exact .refl scopes machine.store
    · exact h.reaches moment hmoment
  keeps := h.keeps
  fresh id other hleft := by
    rcases List.mem_cons.mp hleft with hleft | hleft
    · cases hleft
    · exact h.fresh id other hleft
  settles := List.pairwise_cons.mpr ⟨fun _ _ => trivial, h.settles⟩
  settled moment hmoment := by
    rcases List.mem_cons.mp hmoment with rfl | hmoment
    · trivial
    · exact h.settled moment hmoment

theorem bound {machine : Machine} (scope : FrameId) (name : String)
    (h : before.KeepsOutside scopes machine.store) :
    Chronicle scopes before [.bound scope name machine] machine.store where
  reaches moment hmoment := by
    rw [List.mem_singleton.mp hmoment]
    exact h
  keeps := h
  fresh id other hleft := by cases List.mem_singleton.mp hleft
  settles := List.pairwise_singleton _ _
  settled moment hmoment := by
    rw [List.mem_singleton.mp hmoment]
    trivial

theorem mono {wider : FrameId → Prop} (h : Chronicle scopes before moments after)
    (hwider : ∀ id, scopes id → wider id) : Chronicle wider before moments after where
  reaches moment hmoment := (h.reaches moment hmoment).mono hwider
  keeps := h.keeps.mono hwider
  fresh := h.fresh
  settles := h.settles
  settled := h.settled

-- A call as its caller sees it.
theorem call {frame : Frame} {machine : Machine}
    (h : Chronicle (· = before.next) (before.alloc frame) moments machine.store) :
    Chronicle scopes before (moments ++ [.left before.next machine]) machine.store where
  reaches moment hmoment := by
    rcases List.mem_append.mp hmoment with hmoment | hmoment
    · exact .of_alloc (h.reaches moment hmoment)
    · rw [List.mem_singleton.mp hmoment]
      exact .of_alloc h.keeps
  keeps := .of_alloc h.keeps
  fresh id other hmoment := by
    rcases List.mem_append.mp hmoment with hmoment | hmoment
    · have hnext := h.fresh id other hmoment
      rw [Store.next_alloc] at hnext
      exact Nat.le_of_succ_le hnext
    · cases List.mem_singleton.mp hmoment
      exact Nat.le_refl _
  settles := by
    refine List.pairwise_append.mpr ⟨h.settles, List.pairwise_singleton _ _, ?_⟩
    intro moment hmoment last hlast
    rw [List.mem_singleton.mp hlast]
    exact h.settled moment hmoment
  settled moment hmoment := by
    rcases List.mem_append.mp hmoment with hmoment | hmoment
    · exact h.settled moment hmoment
    · rw [List.mem_singleton.mp hmoment]
      have hnext := h.keeps.next_le
      rw [Store.next_alloc] at hnext
      obtain ⟨frame, hframe⟩ := Store.exists_frame?_of_lt hnext
      exact ⟨frame, hframe, hframe⟩

end Chronicle

-- Every run in a scope that exists is such a part.
def WatchedRule.Settles (watched : WatchedRule) : Prop :=
  ∀ scope e (machine : Machine), scope < machine.store.next →
    Chronicle (· = scope) machine.store (watched.moments scope e machine)
      ((watched.evaluate scope e).on machine).2.store

theorem Request.chronicle {watched : WatchedRule} (hlocal : watched.evaluate.Local)
    (hsettles : watched.Settles) {scope : FrameId} {whole : Expr} {request : Request}
    (h : request.IsAbout scope whole) (machine : Machine) (hscope : scope < machine.store.next) :
    Chronicle (· = scope) machine.store (request.moments watched machine)
      ((request.perform watched.evaluate).on machine).2.store := by
  have hkeeps := (perform_effect hlocal h machine).others
  cases request with
  | lookup s name => exact .nil hkeeps
  | define s name value => exact .bound s name hkeeps
  | evaluate s part =>
    obtain ⟨rfl, -⟩ := h
    exact hsettles s part machine hscope
  | call params body captured args =>
    rw [on_perform_call] at hkeeps ⊢
    simp only [moments]
    cases henter : machine.store.enter? params args (some captured) with
    | none =>
      rw [henter] at hkeeps
      exact .nil hkeeps
    | some entered =>
      obtain ⟨inner, store⟩ := entered
      obtain ⟨-, rfl, rfl⟩ := Store.exists_alloc_of_enter? henter
      refine .call (hsettles _ body { machine with store := machine.store.alloc _ } ?_)
      rw [Store.next_alloc]
      exact Nat.lt_succ_self _

theorem Plan.chronicle (watched : WatchedRule) (hlocal : watched.evaluate.Local)
    (hsettles : watched.Settles) {scope : FrameId} {whole : Expr} {plan : Plan α}
    (h : plan.Asks (Request.IsAbout scope whole)) (machine : Machine)
    (hscope : scope < machine.store.next) :
    Chronicle (· = scope) machine.store (plan.moments watched machine)
      ((plan.run watched.evaluate).on machine).2.store := by
  induction plan generalizing machine with
  | done result => exact .nil (.refl _ _)
  | fail error => exact .nil (.refl _ _)
  | ask request next ih =>
    have hrequest := request.chronicle hlocal hsettles h.1 machine hscope
    rw [moments, on_run_ask]
    rcases hperform : (request.perform watched.evaluate).on machine with ⟨failure | answer, after⟩
    · rw [hperform] at hrequest
      simpa using hrequest
    · rw [hperform] at hrequest
      refine hrequest.append (fun id hid => hid ▸ hscope) ?_
      exact ih answer (h.2 answer) after (Nat.lt_of_lt_of_le hscope hrequest.keeps.next_le)

namespace Eval

theorem watched_settles (limit : Int) (room : Nat) : (watched limit room).Settles := by
  induction room using Nat.strongRecOn with
  | ind room ih =>
    intro scope e machine hscope
    have hkeeps := (evalWithin_local limit room scope e machine).others
    rcases stops_or_steps limit room scope e machine with
      ⟨failure, after, -, -, hmoments⟩ | ⟨less, hless, hrun, hmoments⟩
    · simp only [watched, hmoments]
      exact .began scope e (.nil hkeeps)
    · simp only [watched, hmoments, hrun]
      refine .began scope e ?_
      exact Plan.chronicle (watched limit less) (evalWithin_local limit less) (ih less hless)
        (step_asks scope e) { machine with depth := machine.depth + 1 } hscope

end Eval

theorem Session.chronicle (room : Nat) (entries : List Entry) (machine : Machine)
    (scopes : FrameId → Prop) (hscopes : ∀ id, scopes id → id < machine.store.next)
    (h : ∀ entry ∈ entries, scopes entry.scope) :
    Chronicle scopes machine.store (moments room entries machine)
      (final room entries machine).store := by
  induction entries generalizing machine with
  | nil => exact .nil (.refl _ _)
  | cons entry rest ih =>
    obtain ⟨limit, scope, e⟩ := entry
    have hscope : scopes scope := h _ List.mem_cons_self
    have hfirst := Eval.watched_settles limit room scope e machine (hscopes scope hscope)
    have hkeeps := hfirst.keeps.next_le
    refine (hfirst.mono fun id hid => hid ▸ hscope).append hscopes ?_
    exact ih _ (fun id hid => Nat.lt_of_lt_of_le (hscopes id hid) hkeeps)
      fun entry hentry => h entry (List.mem_cons_of_mem _ hentry)

-- An evaluation changes no frame but that of its scope, and there only what it defines itself. So
-- no frame changes any more once its call has ended, whatever is evaluated in the older scopes.
theorem frames_change_only_by_definition (room : Nat) :
    (∀ limit scope e (machine : Machine), machine.store.Effect scope (Expr.Defines · e)
      ((Eval.evalWithin limit room scope e).on machine).2.store) ∧
      ∀ (entries : List Entry) (machine : Machine),
        (∀ entry ∈ entries, entry.scope < machine.store.next) →
          ((Session.moments room entries machine).Pairwise fun earlier later =>
            earlier.Settled later.machine.store) ∧
            ∀ moment ∈ Session.moments room entries machine,
              moment.Settled (Session.final room entries machine).store := by
  refine ⟨fun limit scope e machine => Eval.evalWithin_local limit room scope e machine,
    fun entries machine h => ?_⟩
  have hchronicle := Session.chronicle room entries machine (· < machine.store.next)
    (fun _ hid => hid) h
  exact ⟨hchronicle.settles, hchronicle.settled⟩

theorem frames_change_only_by_definition_in_call :
    let entries : List Entry := [
      ⟨50, 0, .list [.list [.symbol "lambda", .list [.symbol "x"],
        .list [.symbol "def", .symbol "y", .bool true]], .number (.int 1)]⟩,
      ⟨50, 0, .list [.symbol "def", .symbol "y", .bool false]⟩]
    (∀ entry ∈ entries, entry.scope < Machine.start.store.next) ∧
      (∃ machine, .left 1 machine ∈ Session.moments 9 entries Machine.start) ∧
      ((Session.moments 9 entries Machine.start).Pairwise fun earlier later =>
        earlier.Settled later.machine.store) ∧
      ∀ moment ∈ Session.moments 9 entries Machine.start,
        moment.Settled (Session.final 9 entries Machine.start).store := by
  intro entries
  have hscopes : ∀ entry ∈ entries, entry.scope < Machine.start.store.next := by decide
  refine ⟨hscopes, ⟨_, List.mem_of_getElem? (i := 6) rfl⟩, ?_⟩
  exact (frames_change_only_by_definition 9).2 entries Machine.start hscopes

end Lisplet
