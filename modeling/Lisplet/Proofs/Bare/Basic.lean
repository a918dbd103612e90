import Lisplet.Expr.Access
import Lisplet.Proofs.Eval.Template

namespace Lisplet

-- What the operations of the host raise where they are given what they are not made for. None of
-- it is an error of the language.
inductive Accident where
  | access (error : AccessError)
  | wrongVariant (e : Expr)
  | wrongCount (expected got : Nat)
  | nothingToReduce
  | zeroDivisor
  | missingKey (key : String)
  | noResult
  | stackExhausted
  | noText (n : Int)

inductive Raised where
  | error (error : EvalError)
  | accident (accident : Accident)

abbrev Raises (α : Type) : Type := Except Raised α

-- Evaluation spelled out in the operations of the host, each of which may raise an accident. What
-- keeps an accident from happening is a test made before the operation, or else a handler.
abbrev BareM (α : Type) : Type := ExceptT Raised (StateM Machine) α

abbrev BareRule : Type := FrameId → Expr → BareM Expr

namespace Bare

def fail (accident : Accident) : Raises α := throw (.accident accident)

def isSymbol : Expr → Bool
  | .symbol _ => true
  | _ => false

def isNumber : Expr → Bool
  | .number _ => true
  | _ => false

def isList : Expr → Bool
  | .list _ => true
  | _ => false

def access : Except AccessError α → Raises α
  | .ok a => return a
  | .error error => fail (.access error)

def nameOf : Expr → Raises String
  | .symbol name => return name
  | .builtin p => return p.name
  | e => fail (.wrongVariant e)

def numberOf : Expr → Raises Number
  | .number n => return n
  | e => fail (.wrongVariant e)

def itemsOf : Expr → Raises (List Expr)
  | .list items => return items
  | e => fail (.wrongVariant e)

def count (e : Expr) : Raises Nat := do return (← itemsOf e).length

def item (e : Expr) (index : Int) : Raises Expr := do access (Expr.nth (← itemsOf e) index)

def pair (e : Expr) : Raises (Expr × Expr) := do
  match ← itemsOf e with
  | [first, second] => return (first, second)
  | items => fail (.wrongCount 2 items.length)

mutual

-- The canonical text, unless an integer in it is too long.
def text : Expr → Raises String
  | .symbol name => return name
  | .number (.int n) =>
    if (Number.int n).printable then return (Number.int n).render else fail (.noText n)
  | .number (.float x) => return x.render
  | .bool b => return if b then "true" else "false"
  | .str content => return "\"" ++ content ++ "\""
  | .list items => do return "(" ++ (← texts items) ++ ")"
  | .builtin p => return "#<builtin " ++ p.name ++ ">"
  | .closure params body _ => do
    return "(lambda (" ++ " ".intercalate params ++ ") " ++ (← text body) ++ ")"

def texts : List Expr → Raises String
  | [] => return ""
  | [item] => text item
  | item :: rest => do return (← text item) ++ " " ++ (← texts rest)

end

-- What goes into the message of an error as text.
def inserted? : EvalError → Option Expr
  | .tooDeep limit => some (.number (.int limit))
  | error => error.shown?

-- The message of an error is made first, and where that fails the error itself is not raised.
def signal (error : EvalError) : Raised :=
  match inserted? error with
  | some e =>
    match text e with
    | .ok _ => .error error
    | .error raised => raised
  | none => .error error

def raise (error : EvalError) : Raises α := throw (signal error)

def require (condition : Bool) (error : EvalError) : Raises Unit :=
  if condition then return () else raise error

-- All operands are tested before anything is done with them.
def numbers (p : Primitive) (args : Expr) : Raises (List Expr) := do
  require (isList args) (.notArguments p args)
  require (!(← itemsOf args).isEmpty) (.noArguments p)
  (← itemsOf args).forM fun arg => require (isNumber arg) (.notANumber p arg)
  itemsOf args

def widen (e : Expr) : Raises Binary64 := do access (← numberOf e).widen

def floats (p : Primitive) (args : List Expr) : Raises (List Binary64) :=
  try args.mapM widen
  catch
    | .accident (.access .tooLargeToWiden) => raise (.tooLargeToWiden p)
    | raised => throw raised

def reduce (combine : Number → Number → Raises Number) : List Number → Raises Number
  | [] => fail .nothingToReduce
  | head :: tail => tail.foldlM combine head

-- Two integers make an integer, and an integer that meets a double is widened.
def mixed (exact : Int → Int → Int) (rounded : Binary64 → Binary64 → Binary64) :
    Number → Number → Raises Number
  | .int a, .int b => return .int (exact a b)
  | a, b => do return .float (rounded (← access a.widen) (← access b.widen))

-- Doubles are divided, whatever the operands are.
def quotient (a b : Number) : Raises Number := do
  match Binary64.div? (← access a.widen) (← access b.widen) with
  | some z => return .float z
  | none => fail .zeroDivisor

def isFloat (e : Expr) : Raises Bool := do return (← numberOf e).isFloat

-- A single operand is the result. Several are combined as they are or else made doubles first.
def combined (p : Primitive) (combine : Number → Number → Raises Number) (exact : Bool)
    (operands : List Expr) : Raises Expr := do
  if operands.length = 1 then item (.list operands) 0
  else if ← pure exact <&&> do return !(← operands.anyM isFloat) then
    return .number (← reduce combine (← operands.mapM numberOf))
  else return .number (← reduce combine ((← floats p operands).map .float))

def fold (p : Primitive) (combine : Number → Number → Raises Number) (exact : Bool) (args : Expr) :
    Raises Expr := do
  if isNumber args then return args else combined p combine exact (← numbers p args)

def divide (args : Expr) : Raises Expr :=
  try fold .div quotient false args
  catch
    | .accident .zeroDivisor => raise (.divisionByZero .div)
    | raised => throw raised

def chain (p : Primitive) (holds : Binary64 → Binary64 → Bool) (args : Expr) : Raises Expr := do
  let values ← floats p (← numbers p args)
  return .bool ((values.zip values.tail).all fun (x, y) => holds x y)

def equal (args : Expr) : Raises Expr := do
  if isSymbol args then return .bool true
  else if ← pure (isList args) <&&> (do return (← count args) == 1) <&&>
      (do return isSymbol (← item args 0)) then return .bool true
  else chain .eq Binary64.eq args

def singleList (p : Primitive) (args : Expr) : Raises Expr := do
  require (← pure (isList args) <&&> do return (← count args) == 1) (.notOneArgument p)
  let e ← item args 0
  require (isList e) (.notAList p e)
  return e

def first (e : Expr) : Raises Expr := do
  require (!(← itemsOf e).isEmpty) (.emptyList .first)
  item e 0

def rest (e : Expr) : Raises Expr := do
  require (!(← itemsOf e).isEmpty) (.emptyList .rest)
  return .list ((← itemsOf e).drop 1)

-- What a primitive makes of all its arguments in one list.
def act : Primitive → Expr → Raises Expr
  | .add => fold .add (mixed (· + ·) Binary64.add) true
  | .sub => fold .sub (mixed (· - ·) Binary64.sub) true
  | .mul => fold .mul (mixed (· * ·) Binary64.mul) true
  | .div => divide
  | .gt => chain .gt fun x y => y.lt x
  | .ge => chain .ge fun x y => y.le x
  | .lt => chain .lt Binary64.lt
  | .le => chain .le Binary64.le
  | .eq => equal
  | .first => fun args => do first (← singleList .first args)
  | .rest => fun args => do rest (← singleList .rest args)
  | .arguments _ => fun args => return args

-- The value of a name in a scope that is taken to bind it.
def binding (scope : FrameId) (name : String) : BareM Expr := do
  match (← get).store.frame? scope with
  | some frame =>
    match frame.bindings.find? name with
    | some value => return value
    | none => fail (.missingKey name)
  | none => fail (.missingKey name)

def lookup (scope : FrameId) (name : String) : BareM Expr := do
  match (← get).store.find? scope name with
  | some found => binding found name
  | none => raise (.unbound name)

def assign (scope : FrameId) (name : String) (value : Expr) : BareM Unit :=
  modify fun machine => { machine with store := machine.store.define scope name value }

def enter (params : List String) (args : List Expr) (outer : FrameId) : BareM FrameId := do
  require (params.length = args.length) (.argumentCount params.length args.length)
  let machine ← get
  let frame : Frame := ⟨Bindings.ofPairs (params.zip args), some outer⟩
  set { machine with store := machine.store.alloc frame }
  return machine.store.next

def isNamed (name : String) : Expr → Bool
  | .symbol other => other == name
  | _ => false

-- Whether it is a list of two items with the keyword in front.
def isForm (quasi : Quasi) (e : Expr) : Raises Bool :=
  pure (isList e) <&&> (do return (← count e) == 2) <&&>
    (do return isNamed quasi.keyword (← item e 0))

section

variable (rule : BareRule) (scope : FrameId)

mutual

-- No item of a template is taken out before the test for the form that has it.
def fill (level : Nat) : Expr → BareM Expr
  | .list items => do
    if ← isForm .quasiquote (.list items) then
      return Quasi.quasiquote.form (← fillAt (level + 1) 1 items)
    else if ← isForm .unquote (.list items) then
      if level = 1 then rule scope (← item (.list items) 1)
      else return Quasi.unquote.form (← fillAt (level - 1) 1 items)
    else if ← isForm .splice (.list items) then
      if level = 1 then raise .spliceOutsideList
      else return Quasi.splice.form (← fillAt (level - 1) 1 items)
    else return .list (← fillEach level items)
  | e => return e

-- The item in this place is filled, if there is one.
def fillAt (level : Nat) : Nat → List Expr → BareM Expr
  | _, [] => fail (.access .indexOutOfRange)
  | 0, e :: _ => fill level e
  | index + 1, _ :: rest => fillAt level index rest

def fillEach (level : Nat) : List Expr → BareM (List Expr)
  | [] => return []
  | e :: rest => do
    if (← isForm .splice e) && level = 1 then
      let value ← rule scope (← item e 1)
      require (isList value) .spliceNotList
      return (← itemsOf value) ++ (← fillEach level rest)
    else return (← fill level e) :: (← fillEach level rest)

end

-- A special form gets its operands as one list, and counts them before it takes them out.
def quasiquote (tail : Expr) : BareM Expr := do
  require ((← count tail) = 1) (.operandCount .quasiquote)
  fill rule scope 1 (← item tail 0)

def branch (tail : Expr) : BareM Expr := do
  require ((← count tail) = 3) (.operandCount .branch)
  let condition ← rule scope (← item tail 0)
  if condition.isFalse then rule scope (← item tail 2) else rule scope (← item tail 1)

def define (tail : Expr) : BareM Expr := do
  require ((← count tail) = 2) (.operandCount .define)
  let (name, e) ← pair tail
  require (isSymbol name) (.notAName name)
  let value ← rule scope e
  assign scope (← nameOf name) value
  return value

def lambda (tail : Expr) : Raises Expr := do
  require ((← count tail) = 2) (.operandCount .lambda)
  let (params, body) ← pair tail
  require (← pure (isList params) <&&> do return (← itemsOf params).all isSymbol)
    (.notParameters params)
  return .closure (← (← itemsOf params).mapM nameOf) body scope

def sequence (tail : Expr) : BareM Expr := do
  require (!(← itemsOf tail).isEmpty) (.operandCount .sequence)
  match ← (← itemsOf tail).foldlM (fun _ e => some <$> rule scope e) none with
  | some value => return value
  | none => fail .noResult

def cons (tail : Expr) : BareM Expr := do
  require ((← count tail) = 2) (.operandCount .cons)
  let head ← rule scope (← item tail 0)
  let value ← rule scope (← item tail 1)
  require (isList value) (.tailNotList value)
  return .list (head :: (← itemsOf value))

def special (form : Special) (tail : Expr) : BareM Expr :=
  match form with
  | .quote => do
    require ((← count tail) = 1) (.operandCount .quote)
    item tail 0
  | .quasiquote => quasiquote rule scope tail
  | .unquote => raise (.outsideTemplate .unquote)
  | .splice => raise (.outsideTemplate .splice)
  | .branch => branch rule scope tail
  | .define => define rule scope tail
  | .lambda => lambda scope tail
  | .sequence => sequence rule scope tail
  | .cons => cons rule scope tail

def apply (procedure args : Expr) : BareM Expr :=
  match procedure with
  | .builtin p => act p args
  | .closure params body outer => do rule (← enter params (← itemsOf args) outer) body
  | e => raise (.notCallable e)

def combination (e : Expr) : BareM Expr := do
  let procedure ← rule scope (← first e)
  let args ← (← itemsOf (← rest e)).mapM (rule scope)
  apply rule procedure (.list args)

def specialOf (name : String) : Raises Special :=
  match Special.ofKeyword? name with
  | some form => return form
  | none => fail (.missingKey name)

def step : Expr → BareM Expr
  | .symbol name => lookup scope name
  | .list [] => raise .emptyCall
  | .list (head :: operands) => do
    if ← pure (isSymbol head) <&&> do return (Special.ofKeyword? (← nameOf head)).isSome then
      special rule scope (← specialOf (← nameOf head)) (← rest (.list (head :: operands)))
    else combination rule scope (.list (head :: operands))
  | e => return e

end

-- The limit is put into the text of the record first, and nothing is logged where that fails.
def guardDepth (limit : Int) : BareM Unit := do
  let machine ← get
  if limit ≤ machine.depth then
    let shown ← text (.number (.int limit))
    let record : LogRecord := ⟨.warning, "evaluator.depth_exceeded max_depth=" ++ shown⟩
    set { machine with log := machine.log ++ [record] }
    raise (.tooDeep limit)

-- A full host stack is the one accident that every evaluation handles.
def onStack (action : BareM α) : BareM α :=
  try action
  catch
    | .accident .stackExhausted => raise .hostStackExhausted
    | raised => throw raised

def nested (action : BareM α) : BareM α :=
  ExceptT.mk do
    modify fun machine => { machine with depth := machine.depth + 1 }
    let result ← action.run
    modify fun machine => { machine with depth := machine.depth - 1 }
    return result

def evalWithin (limit : Int) : Nat → BareRule
  | 0, _, _ => do
    guardDepth limit
    nested (onStack (fail .stackExhausted))
  | room + 1, scope, e => do
    guardDepth limit
    nested (onStack (step (evalWithin limit room) scope e))

end Bare

end Lisplet
