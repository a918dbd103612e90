import Lisplet.Eval.Machine

namespace Lisplet

-- What a rule of evaluation asks for. Every request is answered by an expression: a definition
-- by the value it binds, a call by the value of the body in a new scope.
inductive Request where
  | lookup (scope : FrameId) (name : String)
  | define (scope : FrameId) (name : String) (value : Expr)
  | evaluate (scope : FrameId) (e : Expr)
  | call (params : List String) (body : Expr) (scope : FrameId) (args : List Expr)

-- What a rule does, whatever the answers are: each answer leads on to the next request.
inductive Plan (α : Type) where
  | done (result : α)
  | fail (error : EvalError)
  | ask (request : Request) (next : Expr → Plan α)

-- Evaluation of an expression in a scope.
abbrev Rule : Type := FrameId → Expr → EvalM Expr

-- The body of a closure is evaluated in a new scope inside the one it was made in.
def Request.perform (evaluate : Rule) : Request → EvalM Expr
  | lookup scope name => EvalM.lookup scope name
  | define scope name value => do
    EvalM.define scope name value
    return value
  | .evaluate scope e => evaluate scope e
  | call params body scope args => do
    let inner ← EvalM.enter params args scope
    evaluate inner body

namespace Plan

def bind : Plan α → (α → Plan β) → Plan β
  | done result, f => f result
  | fail error, _ => fail error
  | ask request next, f => ask request fun answer => (next answer).bind f

instance : Monad Plan where
  pure := done
  bind := bind

def lookup (scope : FrameId) (name : String) : Plan Expr := ask (.lookup scope name) done

def define (scope : FrameId) (name : String) (value : Expr) : Plan Expr :=
  ask (.define scope name value) done

def evaluate (scope : FrameId) (e : Expr) : Plan Expr := ask (.evaluate scope e) done

def call (params : List String) (body : Expr) (scope : FrameId) (args : List Expr) : Plan Expr :=
  ask (.call params body scope args) done

def ofResult : Except EvalError α → Plan α
  | .ok value => done value
  | .error error => fail error

-- Requests are performed one after the other, and the first that fails ends the plan.
def run (evaluate : Rule) : Plan α → EvalM α
  | done result => return result
  | fail error => EvalM.fail error
  | ask request next => do (next (← request.perform evaluate)).run evaluate

end Plan

end Lisplet
