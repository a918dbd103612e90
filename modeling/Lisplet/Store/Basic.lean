import Lisplet.Expr.Basic

namespace Lisplet

-- Bindings in the order in which their names first came up.
abbrev Bindings : Type := List (String × Expr)

namespace Bindings

-- A name that is bound already keeps its place and gets the new value.
def put (name : String) (value : Expr) : Bindings → Bindings
  | [] => [(name, value)]
  | (other, old) :: rest =>
    if other = name then (name, value) :: rest else (other, old) :: put name value rest

def find? (name : String) (bindings : Bindings) : Option Expr := bindings.lookup name

-- Of several values for one name the last counts.
def ofPairs (pairs : List (String × Expr)) : Bindings :=
  pairs.foldl (fun bindings pair => put pair.1 pair.2 bindings) []

end Bindings

-- One scope: its own bindings and the scope around it. The global scope has none around it.
structure Frame where
  bindings : Bindings
  outer : Option FrameId

-- All scopes ever made. None is dropped, for a closure may come back to any of them.
structure Store where
  frames : Array Frame

namespace Store

def empty : Store := ⟨#[]⟩

def frame? (store : Store) (id : FrameId) : Option Frame := store.frames[id]?

-- The id of the scope that is made next.
def next (store : Store) : FrameId := store.frames.size

def alloc (store : Store) (frame : Frame) : Store := ⟨store.frames.push frame⟩

def define (store : Store) (id : FrameId) (name : String) (value : Expr) : Store :=
  ⟨store.frames.modify id fun frame => { frame with bindings := frame.bindings.put name value }⟩

-- The nearest scope that binds the name. A scope lies inside older ones only.
def find? (store : Store) (id : FrameId) (name : String) : Option FrameId :=
  match store.frame? id with
  | none => none
  | some frame =>
    if (frame.bindings.find? name).isSome then some id
    else match frame.outer with
      | none => none
      | some outer => if outer < id then store.find? outer name else none
termination_by id

def lookup? (store : Store) (id : FrameId) (name : String) : Option Expr :=
  (store.find? id name).bind fun found =>
    (store.frame? found).bind fun frame => frame.bindings.find? name

-- A scope and those around it, from the inside out.
def scopes (store : Store) (id : FrameId) : List FrameId :=
  match store.frame? id with
  | none => []
  | some frame =>
    id :: match frame.outer with
      | none => []
      | some outer => if outer < id then store.scopes outer else []
termination_by id

-- A scope for parameters and their arguments, unless their numbers differ.
def enter? (store : Store) (params : List String) (args : List Expr) (outer : Option FrameId) :
    Option (FrameId × Store) :=
  if params.length = args.length then
    some (store.next, store.alloc ⟨Bindings.ofPairs (params.zip args), outer⟩)
  else none

-- The global scope: every primitive and two constants.
def globalBindings : Bindings :=
  (Primitive.globals.map fun p => (p.name, .builtin p)) ++
    [("PI", .number (.float (.ofDecimal false ⟨3141592653589793, -15⟩))),
      ("E", .number (.float (.ofDecimal false ⟨2718281828459045, -15⟩)))]

def global : Store := empty.alloc ⟨globalBindings, none⟩

end Store

end Lisplet
