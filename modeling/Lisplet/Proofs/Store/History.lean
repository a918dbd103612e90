import Lisplet.Proofs.Eval.Run
import Lisplet.Proofs.Store.Chain
import Lisplet.Store.Access

namespace Lisplet

-- What a host program does with scopes.
inductive Change where
  | make (params : List String) (args : List Expr) (outer : Option FrameId)
  | define (scope : FrameId) (name : String) (value : Expr)
  | update (scope : FrameId) (entries : List (String × Expr))

-- A value that is given to a name in a scope.
abbrev Assignment : Type := (FrameId × String) × Expr

def assign (scope : FrameId) (entries : List (String × Expr)) : List Assignment :=
  entries.map fun entry => ((scope, entry.1), entry.2)

-- The value that was given last.
def latest? (given : List Assignment) (scope : FrameId) (name : String) : Option Expr :=
  given.reverse.lookup (scope, name)

namespace Change

-- A scope that is refused leaves everything as it is.
def apply (store : Store) : Change → Store
  | make params args outer =>
    match store.make params args outer with
    | .ok (_, after) => after
    | .error _ => store
  | define scope name value => store.define scope name value
  | update scope entries => store.update scope entries

-- Where the scopes that are made lie.
def links : Change → List (Option FrameId)
  | make params args outer => if params.length = args.length then [outer] else []
  | define .. | update .. => []

-- What is given to which names, if there are so many scopes before. Parameters are given their
-- arguments one after the other.
def given (size : Nat) : Change → List Assignment
  | make params args _ =>
    if params.length = args.length then assign size (params.zip args) else []
  | define scope name value => assign scope [(name, value)]
  | update scope entries => assign scope entries

-- Only scopes that are there can be spoken of.
def IsAbout (size : Nat) : Change → Prop
  | make _ _ outer => ∀ id ∈ outer, id < size
  | define scope _ _ | update scope _ => scope < size

end Change

namespace History

def links (changes : List Change) : List (Option FrameId) := changes.flatMap Change.links

def given : Nat → List Change → List Assignment
  | _, [] => []
  | size, change :: rest => change.given size ++ given (size + change.links.length) rest

def Valid : Nat → List Change → Prop
  | _, [] => True
  | size, change :: rest => change.IsAbout size ∧ Valid (size + change.links.length) rest

-- The scopes from one outwards, where they lie in each other like this.
inductive LeadsOut (links : List (Option FrameId)) : FrameId → List FrameId → Prop
  | outermost (id : FrameId) (h : links[id]? = some none) : LeadsOut links id [id]
  | inner (id outer : FrameId) (rest : List FrameId) (h : links[id]? = some (some outer))
      (hrest : LeadsOut links outer rest) : LeadsOut links id (id :: rest)

end History

theorem latest?_append (given more : List Assignment) (scope : FrameId) (name : String) :
    latest? (given ++ more) scope name =
      (latest? more scope name).or (latest? given scope name) := by
  rw [latest?, List.reverse_append, List.lookup_append]
  rfl

theorem latest?_assign_singleton (scope id : FrameId) (entry : String × Expr) (name : String) :
    latest? (assign scope [entry]) id name =
      if (id, name) = (scope, entry.1) then some entry.2 else none := by
  rw [latest?, assign, List.map_singleton, List.reverse_singleton, List.lookup_cons]
  by_cases h : (id, name) = (scope, entry.1)
  · simp [h]
  · simp [h, beq_false_of_ne h]

namespace Store

def after (store : Store) (changes : List Change) : Store := changes.foldl Change.apply store

-- The store is what has come of making such scopes and giving such values.
structure Records (store : Store) (links : List (Option FrameId)) (given : List Assignment) :
    Prop where
  forest : store.Forest
  next : store.next = links.length
  outer : ∀ id, (store.frame? id).map Frame.outer = links[id]?
  value : ∀ id name, store.value? name id = latest? given id name

variable {store : Store} {links : List (Option FrameId)} {given : List Assignment}

theorem records_empty : empty.Records [] [] where
  forest := fun _ _ _ hframe => by cases hframe
  next := rfl
  outer _ := rfl
  value _ _ := rfl

theorem value?_define {scope : FrameId} (hscope : scope < store.next) (id : FrameId)
    (name other : String) (value : Expr) :
    (store.define scope name value).value? other id =
      if (id, other) = (scope, name) then some value else store.value? other id := by
  obtain ⟨frame, hframe⟩ := exists_frame?_of_lt hscope
  rw [value?, frame?_define]
  by_cases hid : id = scope
  · subst hid
    simp [value?, hframe, Bindings.find?_put]
  · simp [value?, hid]

theorem Records.define (h : store.Records links given) {scope : FrameId}
    (hscope : scope < store.next) (name : String) (value : Expr) :
    (store.define scope name value).Records links (given ++ assign scope [(name, value)]) where
  forest := h.forest.define scope name value
  next := (next_define store scope name value).trans h.next
  outer id := (outer_frame?_define store scope id name value).trans (h.outer id)
  value id other := by
    rw [value?_define hscope, latest?_append, latest?_assign_singleton, h.value]
    split <;> rfl

theorem Records.update (h : store.Records links given) {scope : FrameId}
    (hscope : scope < store.next) (entries : List (String × Expr)) :
    (store.update scope entries).Records links (given ++ assign scope entries) := by
  induction entries generalizing store given with
  | nil => simpa [Store.update, assign] using h
  | cons entry entries ih =>
    have hfirst := h.define hscope entry.1 entry.2
    have hrest := ih hfirst (by rwa [next_define])
    simpa [Store.update, assign] using hrest

theorem define_alloc_next (store : Store) (frame : Frame) (name : String) (value : Expr) :
    (store.alloc frame).define store.next name value =
      store.alloc { frame with bindings := frame.bindings.put name value } := by
  refine congrArg Store.mk (Array.ext_getElem? fun id => ?_)
  simp only [alloc, next, Array.getElem?_modify]
  by_cases hid : store.frames.size = id
  · simp [← hid]
  · simp [Array.getElem?_push, hid, Ne.symm hid]

-- Parameters get their arguments one after the other.
theorem alloc_ofPairs (store : Store) (pairs : List (String × Expr)) (outer : Option FrameId) :
    store.alloc ⟨Bindings.ofPairs pairs, outer⟩ =
      (store.alloc ⟨[], outer⟩).update store.next pairs := by
  have hfold : ∀ bindings : Bindings,
      (store.alloc ⟨bindings, outer⟩).update store.next pairs =
        store.alloc ⟨pairs.foldl (fun bindings pair => bindings.put pair.1 pair.2) bindings,
          outer⟩ := by
    induction pairs with
    | nil => exact fun _ => rfl
    | cons pair pairs ih =>
      intro bindings
      rw [List.foldl_cons, ← ih]
      exact congrArg (update · store.next pairs) (define_alloc_next store _ pair.1 pair.2)
  exact (hfold []).symm

theorem Records.alloc (h : store.Records links given) {outer : Option FrameId}
    (houter : ∀ id ∈ outer, id < store.next) :
    (store.alloc ⟨[], outer⟩).Records (links ++ [outer]) given where
  forest := h.forest.alloc [] houter
  next := by simp [h.next]
  outer id := by
    by_cases hnew : id = store.next
    · rw [hnew, frame?_alloc_next, h.next]
      simp
    · rw [frame?_alloc_of_ne _ hnew, h.outer]
      rcases Nat.lt_or_gt_of_ne (h.next ▸ hnew) with hold | hlater
      · exact (List.getElem?_append_left hold).symm
      · rw [List.getElem?_eq_none (Nat.le_of_lt hlater), List.getElem?_eq_none]
        rw [List.length_append]
        exact hlater
  value id name := by
    rw [← h.value]
    by_cases hnew : id = store.next
    · have hnone : store.frame? store.next = none := Array.getElem?_size
      rw [hnew, value?, frame?_alloc_next, value?, hnone]
      rfl
    · rw [value?, frame?_alloc_of_ne _ hnew, value?]

theorem make_of_length_eq (store : Store) {params : List String} {args : List Expr}
    (h : params.length = args.length) (outer : Option FrameId) :
    store.make params args outer =
      .ok (store.next, (store.alloc ⟨[], outer⟩).update store.next (params.zip args)) := by
  rw [make, enter?, if_pos h, alloc_ofPairs]

theorem make_of_length_ne (store : Store) {params : List String} {args : List Expr}
    (h : params.length ≠ args.length) (outer : Option FrameId) :
    store.make params args outer = .error (.argumentCount params.length args.length) := by
  rw [make, enter?, if_neg h]

theorem Records.apply (h : store.Records links given) {change : Change}
    (habout : change.IsAbout links.length) :
    (change.apply store).Records (links ++ change.links) (given ++ change.given links.length) := by
  rw [← h.next] at habout ⊢
  cases change with
  | make params args outer =>
    by_cases hlength : params.length = args.length
    · have hnew : store.next < (store.alloc ⟨[], outer⟩).next := by simp
      have hbound := (h.alloc habout).update hnew (params.zip args)
      simpa [Change.apply, Change.links, Change.given, hlength,
        make_of_length_eq store hlength] using hbound
    · simpa [Change.apply, Change.links, Change.given, hlength,
        make_of_length_ne store hlength] using h
  | define scope name value =>
    simpa [Change.apply, Change.links, Change.given] using h.define habout name value
  | update scope entries =>
    simpa [Change.apply, Change.links, Change.given] using h.update habout entries

theorem Records.after (h : store.Records links given) {changes : List Change}
    (hvalid : History.Valid links.length changes) :
    (store.after changes).Records (links ++ History.links changes)
      (given ++ History.given links.length changes) := by
  induction changes generalizing store links given with
  | nil => simpa [Store.after, History.links, History.given] using h
  | cons change rest ih =>
    obtain ⟨habout, hrest⟩ := hvalid
    rw [← List.length_append] at hrest
    simpa [Store.after, History.links, History.given] using ih (h.apply habout) hrest

theorem Records.leadsOut (h : store.Records links given) {id : FrameId} {chain : List FrameId}
    (hchain : store.Chain id chain) : History.LeadsOut links id chain := by
  induction hchain with
  | outermost id frame hframe houter =>
    refine .outermost id ?_
    rw [← h.outer, hframe, Option.map_some, houter]
  | inner id outer frame rest hframe houter hrest ih =>
    refine .inner id outer rest ?_ ih
    rw [← h.outer, hframe, Option.map_some, houter]

-- A definition leaves the links as they are.
theorem Chain.define {id : FrameId} {chain : List FrameId} (h : store.Chain id chain)
    (scope : FrameId) (name : String) (value : Expr) :
    (store.define scope name value).Chain id chain := by
  induction h with
  | outermost id frame hframe houter =>
    obtain ⟨same, hsame, hlink⟩ := exists_frame?_define hframe scope name value
    exact .outermost id same hsame (hlink.trans houter)
  | inner id outer frame rest hframe houter hrest ih =>
    obtain ⟨same, hsame, hlink⟩ := exists_frame?_define hframe scope name value
    exact .inner id outer same rest hsame (hlink.trans houter) ih

theorem findSome?_update_of_nearest {f : FrameId → Option Expr} {nearer : List FrameId}
    (h : ∀ id ∈ nearer, f id = none) (scope : FrameId) (value : Expr) (farther : List FrameId) :
    (nearer ++ scope :: farther).findSome? (Function.update f scope (some value)) =
      some value := by
  induction nearer with
  | nil => simp
  | cons id nearer ih =>
    obtain ⟨hid, hrest⟩ := List.forall_mem_cons.mp h
    rw [List.cons_append, List.findSome?_cons, ih hrest, Function.update_apply, hid]
    by_cases hscope : id = scope <;> simp [hscope]

theorem findSome?_update_of_not_nearest {f : FrameId → Option Expr} {scope : FrameId}
    {chain : List FrameId} (value : Expr)
    (h : ¬∃ nearer farther, chain = nearer ++ scope :: farther ∧ ∀ id ∈ nearer, f id = none) :
    chain.findSome? (Function.update f scope (some value)) = chain.findSome? f := by
  induction chain with
  | nil => rfl
  | cons id chain ih =>
    have hne : id ≠ scope := fun hid => h ⟨[], chain, by simp [hid], by simp⟩
    rw [List.findSome?_cons, List.findSome?_cons, Function.update_of_ne hne]
    cases hvalue : f id with
    | some other => rfl
    | none =>
      refine ih fun ⟨nearer, farther, hchain, hnearer⟩ => h ⟨id :: nearer, farther, ?_, ?_⟩
      · rw [hchain, List.cons_append]
      · exact List.forall_mem_cons.mpr ⟨hvalue, hnearer⟩

-- The scope is on the way out, and none before it binds the name.
def Sees (store : Store) (id scope : FrameId) (name : String) : Prop :=
  ∃ nearer farther, store.scopes id = nearer ++ scope :: farther ∧
    ∀ other ∈ nearer, store.value? name other = none

-- A definition shows from where no nearer scope binds the name, and nothing else changes.
structure Shows (store : Store) (id scope : FrameId) (name : String) (value : Expr) : Prop where
  seen : store.Sees id scope name → (store.define scope name value).lookup id name = .ok value
  hidden : ¬store.Sees id scope name →
    (store.define scope name value).lookup id name = store.lookup id name
  other : ∀ other ≠ name, (store.define scope name value).lookup id other = store.lookup id other

theorem Forest.shows (h : store.Forest) {id scope : FrameId} (hid : id < store.next)
    (hscope : scope < store.next) (name : String) (value : Expr) :
    store.Shows id scope name value := by
  obtain ⟨chain, hchain⟩ := h.exists_chain id hid
  have hscopes := h.scopes_eq hchain
  have hbefore := h.lookup?_eq hchain
  have hafter := (h.define scope name value).lookup?_eq (hchain.define scope name value)
  have hupdate : (store.define scope name value).value? name =
      Function.update (store.value? name) scope (some value) := by
    funext id
    simp [value?_define hscope, Function.update_apply]
  refine ⟨?_, fun hhidden => ?_, fun other hother => ?_⟩
  · rintro ⟨nearer, farther, hsplit, hnearer⟩
    rw [lookup, hafter, hupdate, ← hscopes, hsplit, findSome?_update_of_nearest hnearer]
  · rw [Sees, hscopes] at hhidden
    rw [lookup, lookup, hafter, hbefore, hupdate, findSome?_update_of_not_nearest value hhidden]
  · have hsame : (store.define scope name value).value? other = store.value? other := by
      funext id
      simp [value?_define hscope, hother]
    rw [lookup, lookup, hafter, hbefore, hsame]

-- A name is looked for from a scope outwards, and means what it was given last in the first scope
-- that binds it.
structure Finds (store : Store) (links : List (Option FrameId)) (given : List Assignment)
    (id : FrameId) (name : String) : Prop where
  scopes : History.LeadsOut links id (store.scopes id)
  own : ∀ scope ∈ store.scopes id, store.value? name scope = latest? given scope name
  find : store.find? id name =
    (store.scopes id).find? fun scope => (store.value? name scope).isSome
  contains : store.contains id name ↔ ∃ scope, store.find? id name = some scope
  bound : (∃ scope, store.find? id name = some scope) ↔ ∃ value, store.lookup id name = .ok value
  lookup : ∀ scope, store.find? id name = some scope →
    ∃ value, latest? given scope name = some value ∧ store.lookup id name = .ok value
  unbound : store.find? id name = none → store.lookup id name = .error (.unbound name)

theorem Records.finds (h : store.Records links given) {id : FrameId} (hid : id < store.next)
    (name : String) : store.Finds links given id name := by
  obtain ⟨chain, hchain⟩ := h.forest.exists_chain id hid
  have hscopes := h.forest.scopes_eq hchain
  have hlookup : ∀ scope, store.find? id name = some scope →
      ∃ value, latest? given scope name = some value ∧ store.lookup id name = .ok value := by
    intro scope hfind
    obtain ⟨frame, value, hframe, hvalue⟩ := exists_binding_of_find? hfind
    refine ⟨value, ?_, ?_⟩
    · rw [← h.value, value?, hframe, Option.bind_some, hvalue]
    · simp [lookup, lookup?, hfind, hframe, hvalue]
  have hunbound : store.find? id name = none →
      store.lookup id name = .error (.unbound name) := fun hfind => by
    simp [lookup, lookup?, hfind]
  refine ⟨hscopes ▸ h.leadsOut hchain, fun scope _ => h.value scope name, ?_, ?_, ?_, hlookup,
    hunbound⟩
  · rw [hscopes, h.forest.find?_eq hchain]
  · rw [contains, Option.isSome_iff_exists]
  · constructor
    · rintro ⟨scope, hfind⟩
      obtain ⟨value, -, hvalue⟩ := hlookup scope hfind
      exact ⟨value, hvalue⟩
    · rintro ⟨value, hvalue⟩
      cases hfind : store.find? id name with
      | some scope => exact ⟨scope, rfl⟩
      | none =>
        rw [hunbound hfind] at hvalue
        cases hvalue

-- The nearest binding counts, whatever scopes were made and whatever was bound in them.
theorem nearest_binding_counts (changes : List Change) (h : History.Valid 0 changes) :
    (∀ id < (History.links changes).length, ∀ name,
      (empty.after changes).Finds (History.links changes) (History.given 0 changes) id name) ∧
    (∀ id < (History.links changes).length, ∀ scope < (History.links changes).length,
      ∀ name value, (empty.after changes).Shows id scope name value) ∧
    (∀ params args outer, params.length = args.length →
      (empty.after changes).make params args outer =
        .ok ((History.links changes).length,
          (Change.make params args outer).apply (empty.after changes))) ∧
    (∀ params args, params.length ≠ args.length →
      (EvalError.argumentCount params.length args.length).kind = .arity ∧
      (∀ outer, (empty.after changes).make params args outer =
          .error (.argumentCount params.length args.length) ∧
        (Change.make params args outer).apply (empty.after changes) = empty.after changes) ∧
      ∀ outer machine, (EvalM.enter params args outer).on machine =
        (.error (.ofEvalError (.argumentCount params.length args.length)), machine)) := by
  have hrecords := records_empty.after h
  simp only [List.nil_append, List.length_nil] at hrecords
  rw [← hrecords.next]
  refine ⟨fun id hid => hrecords.finds hid, fun id hid scope hscope =>
    hrecords.forest.shows hid hscope, fun params args outer hlength => ?_,
    fun params args hlength => ⟨rfl, fun outer => ?_, fun outer machine => ?_⟩⟩
  · rw [Change.apply, make_of_length_eq _ hlength]
  · have hrefused := make_of_length_ne (empty.after changes) hlength outer
    exact ⟨hrefused, by rw [Change.apply, hrefused]⟩
  · rw [EvalM.on_enter, enter?, if_neg hlength]

theorem nearest_binding_counts_in_nested_scopes :
    let number (n : Int) : Expr := .number (.int n)
    let changes : List Change := [.make [] [] none,
      .update 0 [("x", number 1), ("y", number 2)],
      .make ["x", "x"] [number 3, number 4] (some 0), .make ["z"] [] (some 1),
      .define 0 "y" (number 5), .make ["z"] [number 6] (some 1)]
    let store := empty.after changes
    History.Valid 0 changes ∧ store.scopes 2 = [2, 1, 0] ∧
    store.lookup 2 "x" = .ok (number 4) ∧
    (store.define 0 "x" (number 7)).lookup 2 "x" = store.lookup 2 "x" ∧
    (store.define 0 "y" (number 7)).lookup 2 "y" = .ok (number 7) ∧
    store.make ["z"] [] (some 1) = .error (.argumentCount 1 0) := by
  intro number changes store
  have hvalid : History.Valid 0 changes := by
    simp [changes, History.Valid, Change.IsAbout, Change.links]
  obtain ⟨hfinds, hshows, -, hrefused⟩ := nearest_binding_counts changes hvalid
  have hscopes : store.scopes 2 = [2, 1, 0] := by decide +kernel
  have hnearest : store.value? "x" 1 = some (number 4) := rfl
  have hhidden : ¬store.Sees 2 0 "x" := by
    rintro ⟨nearer, farther, hsplit, hnearer⟩
    rw [hscopes] at hsplit
    rcases nearer with _ | ⟨first, _ | ⟨second, rest⟩⟩
    · simp at hsplit
    · simp at hsplit
    · obtain ⟨-, rfl, -⟩ : 2 = first ∧ 1 = second ∧ [0] = rest ++ 0 :: farther := by
        simpa using hsplit
      have hnone := hnearer 1 (by simp)
      rw [hnearest] at hnone
      cases hnone
  have hseen : store.Sees 2 0 "y" := ⟨[2, 1], [], hscopes, by decide +kernel⟩
  obtain ⟨value, hvalue, hlookup⟩ := (hfinds 2 (by decide) "x").lookup 1 (by decide +kernel)
  have hlast : latest? (History.given 0 changes) 1 "x" = some (number 4) := rfl
  rw [hlast] at hvalue
  cases hvalue
  exact ⟨hvalid, hscopes, hlookup,
    (hshows 2 (by decide) 0 (by decide) "x" (number 7)).hidden hhidden,
    (hshows 2 (by decide) 0 (by decide) "y" (number 7)).seen hseen,
    ((hrefused ["z"] [] (by decide)).2.1 (some 1)).1⟩

end Store

end Lisplet
