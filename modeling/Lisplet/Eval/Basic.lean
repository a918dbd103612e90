import Lisplet.Builtin
import Lisplet.Eval.Template

namespace Lisplet

namespace Eval

-- Values from left to right.
def evaluateAll (scope : FrameId) : List Expr → Plan (List Expr)
  | [] => return []
  | e :: rest => do
    let value ← Plan.evaluate scope e
    return value :: (← evaluateAll scope rest)

-- The value of the last of several expressions.
def evaluateInOrder (scope : FrameId) (e : Expr) : List Expr → Plan Expr
  | [] => Plan.evaluate scope e
  | next :: rest => do
    let _ ← Plan.evaluate scope e
    evaluateInOrder scope next rest

def application (procedure : Expr) (args : List Expr) : Plan Expr :=
  match procedure with
  | .builtin p => Plan.ofResult (p.apply (.list args))
  | .closure params body scope => Plan.call params body scope args
  | e => Plan.fail (.notCallable e)

-- The operator is evaluated first, then the operands, and only then is the operator looked at.
def combination (scope : FrameId) (operator : Expr) (operands : List Expr) : Plan Expr := do
  let procedure ← Plan.evaluate scope operator
  let args ← evaluateAll scope operands
  application procedure args

-- Only the false value selects the last operand.
def branch (scope : FrameId) : List Expr → Plan Expr
  | [condition, consequent, alternative] => do
    let value ← Plan.evaluate scope condition
    Plan.evaluate scope (if value.isFalse then alternative else consequent)
  | _ => Plan.fail (.operandCount .branch)

-- Binds in the current scope and nowhere else.
def define (scope : FrameId) : List Expr → Plan Expr
  | [.symbol name, e] => do
    let value ← Plan.evaluate scope e
    Plan.define scope name value
  | [e, _] => Plan.fail (.notAName e)
  | _ => Plan.fail (.operandCount .define)

def lambda (scope : FrameId) : List Expr → Plan Expr
  | [.list items, body] =>
    match items.mapM Expr.symbol? with
    | some params => return .closure params body scope
    | none => Plan.fail (.notParameters (.list items))
  | [e, _] => Plan.fail (.notParameters e)
  | _ => Plan.fail (.operandCount .lambda)

def cons (scope : FrameId) : List Expr → Plan Expr
  | [first, second] => do
    let head ← Plan.evaluate scope first
    match ← Plan.evaluate scope second with
    | .list items => return .list (head :: items)
    | e => Plan.fail (.tailNotList e)
  | _ => Plan.fail (.operandCount .cons)

-- Special forms get their operands as they stand.
def special (scope : FrameId) (form : Special) (operands : List Expr) : Plan Expr :=
  match form with
  | .quote =>
    match operands with
    | [e] => return e
    | _ => Plan.fail (.operandCount .quote)
  | .quasiquote =>
    match operands with
    | [template] => Template.fill scope 1 template
    | _ => Plan.fail (.operandCount .quasiquote)
  | .unquote => Plan.fail (.outsideTemplate .unquote)
  | .splice => Plan.fail (.outsideTemplate .splice)
  | .branch => branch scope operands
  | .define => define scope operands
  | .lambda => lambda scope operands
  | .sequence =>
    match operands with
    | [] => Plan.fail (.operandCount .sequence)
    | e :: rest => evaluateInOrder scope e rest
  | .cons => cons scope operands

-- One evaluation, as a plan. A keyword in front makes a special form whatever the scope binds it
-- to.
def step (scope : FrameId) : Expr → Plan Expr
  | .symbol name => Plan.lookup scope name
  | .list [] => Plan.fail .emptyCall
  | .list (.symbol name :: operands) =>
    match Special.ofKeyword? name with
    | some form => special scope form operands
    | none => combination scope (.symbol name) operands
  | .list (operator :: operands) => combination scope operator operands
  | e => return e

-- Evaluation that may nest so many levels deeper before the host stack is full. The limit of the
-- language is looked at first.
def evalWithin (limit : Int) : Nat → Rule
  | 0, _, _ => do
    EvalM.guardDepth limit
    EvalM.fail .hostStackExhausted
  | room + 1, scope, e => do
    EvalM.guardDepth limit
    EvalM.nested ((step scope e).run (evalWithin limit room))

-- Nested evaluations that the host stack has room for.
def hostRoom : Nat := 1000

-- A host program can apply a procedure to values of its own.
def apply (evaluate : Rule) (procedure : Expr) (args : List Expr) : EvalM Expr :=
  (application procedure args).run evaluate

end Eval

-- The value of an expression in a scope, with at most so many evaluations under way at a time.
def eval (limit : Int) (scope : FrameId) (e : Expr) : EvalM Expr :=
  Eval.evalWithin limit Eval.hostRoom scope e

end Lisplet
