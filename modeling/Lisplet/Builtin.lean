import Lisplet.Eval.Error

namespace Lisplet

namespace Primitive

-- The numbers in a non-empty argument list. The first argument of another kind is named.
def numbers (p : Primitive) : Expr → Except EvalError (List Number)
  | .list [] => .error (.noArguments p)
  | .list items => items.mapM fun item =>
    match item with
    | .number n => .ok n
    | e => .error (.notANumber p e)
  | e => .error (.notArguments p e)

def widenAll (p : Primitive) (numbers : List Number) : Except EvalError (List Binary64) :=
  match numbers.mapM Number.widen? with
  | some values => .ok values
  | none => .error (.tooLargeToWiden p)

-- The operations on doubles. Only division can fail.
def combine (p : Primitive) : Binary64 → Binary64 → Except EvalError Binary64 :=
  match p with
  | .add => fun x y => .ok (x.add y)
  | .sub => fun x y => .ok (x.sub y)
  | .mul => fun x y => .ok (x.mul y)
  | _ => fun x y =>
    match Binary64.div? x y with
    | some z => .ok z
    | none => .error (.divisionByZero p)

-- The operations that keep integers exact. Division is not one of them.
def combineExact? : Primitive → Option (Int → Int → Int)
  | .add => some (· + ·)
  | .sub => some (· - ·)
  | .mul => some (· * ·)
  | _ => none

-- All operands if they are integers and the operation keeps them exact.
def exactOperands? (p : Primitive) (numbers : List Number) :
    Option ((Int → Int → Int) × List Int) :=
  match combineExact? p, numbers.mapM Number.int? with
  | some combine, some values => some (combine, values)
  | _, _ => none

-- Operands are combined from the left. A single one is the result as it stands.
def fold (p : Primitive) : List Number → Except EvalError Number
  | [n] => .ok n
  | numbers =>
    match exactOperands? p numbers with
    | some (combine, head :: tail) => .ok (.int (tail.foldl combine head))
    | _ => do
      match ← widenAll p numbers with
      | head :: tail => return .float (← tail.foldlM (combine p) head)
      | [] => .error (.noArguments p)

-- A number in place of the argument list is its own result.
def arithmetic (p : Primitive) : Expr → Except EvalError Expr
  | .number n => .ok (.number n)
  | args => do return .number (← fold p (← numbers p args))

def adjacent (holds : Binary64 → Binary64 → Bool) : List Binary64 → Bool
  | x :: y :: tail => holds x y && adjacent holds (y :: tail)
  | _ => true

-- Whether the relation holds between all neighbours.
def chain (p : Primitive) (holds : Binary64 → Binary64 → Bool) (args : Expr) :
    Except EvalError Expr := do
  return .bool (adjacent holds (← widenAll p (← numbers p args)))

-- A symbol alone equals itself.
def equal : Expr → Except EvalError Expr
  | .symbol _ => .ok (.bool true)
  | .list [.symbol _] => .ok (.bool true)
  | args => chain .eq Binary64.eq args

def singleList (p : Primitive) : Expr → Except EvalError (List Expr)
  | .list [.list items] => .ok items
  | .list [e] => .error (.notAList p e)
  | _ => .error (.notOneArgument p)

def firstItem (args : Expr) : Except EvalError Expr := do
  match ← singleList .first args with
  | head :: _ => return head
  | [] => .error (.emptyList .first)

def restItems (args : Expr) : Except EvalError Expr := do
  match ← singleList .rest args with
  | _ :: tail => return .list tail
  | [] => .error (.emptyList .rest)

-- A procedure gets all its arguments as one list.
def apply : Primitive → Expr → Except EvalError Expr
  | .gt => chain .gt fun x y => y.lt x
  | .ge => chain .ge fun x y => y.le x
  | .lt => chain .lt Binary64.lt
  | .le => chain .le Binary64.le
  | .eq => equal
  | .first => firstItem
  | .rest => restItems
  | .arguments _ => .ok
  | p => arithmetic p

end Primitive

end Lisplet
