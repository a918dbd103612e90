import Lisplet.Expr.Printer
import Lisplet.Special

namespace Lisplet

-- Why an expression has no value.
inductive EvalError where
  | unbound (name : String)
  | emptyCall
  | notCallable (e : Expr)
  | argumentCount (expected got : Nat)
  | operandCount (form : Special)
  | notAName (e : Expr)
  | notParameters (e : Expr)
  | tailNotList (e : Expr)
  | outsideTemplate (form : Special)
  | spliceOutsideList
  | spliceNotList
  | notArguments (p : Primitive) (e : Expr)
  | noArguments (p : Primitive)
  | notOneArgument (p : Primitive)
  | notANumber (p : Primitive) (e : Expr)
  | notAList (p : Primitive) (e : Expr)
  | tooLargeToWiden (p : Primitive)
  | emptyList (p : Primitive)
  | divisionByZero (p : Primitive)
  | tooDeep (limit : Int)
  | hostStackExhausted

-- The kinds that reports distinguish.
inductive EvalErrorKind where
  | general | unbound | arity | wrongType | emptyList | notCallable | divisionByZero | depth
deriving DecidableEq, Repr

def EvalErrorKind.name : EvalErrorKind → String
  | general => "EvaluatorError"
  | unbound => "UnboundSymbolError"
  | arity => "ArityError"
  | wrongType => "WrongTypeError"
  | emptyList => "EmptyListError"
  | notCallable => "NotCallableError"
  | divisionByZero => "DivisionByZeroError"
  | depth => "RecursionDepthError"

-- What a form says about a wrong number of operands. The unquote forms never count theirs.
def Special.operandRule : Special → String
  | quote => "quote expects exactly 1 argument"
  | quasiquote => "quasiquote expects exactly 1 argument"
  | unquote => "unquote expects exactly 1 argument"
  | splice => "unquotesplicing expects exactly 1 argument"
  | branch => "if requires a condition, a then-expression and an else-expression"
  | define => "def requires exactly 2 arguments"
  | lambda => "lambda requires a parameter list and a body"
  | sequence => "do requires at least one expression"
  | cons => "cons requires exactly 2 arguments"

namespace EvalError

def kind : EvalError → EvalErrorKind
  | unbound _ => .unbound
  | notCallable _ => .notCallable
  | argumentCount .. | operandCount _ | noArguments _ | notOneArgument _ => .arity
  | notAName _ | notParameters _ | tailNotList _ | spliceNotList | notArguments .. | notANumber ..
  | notAList .. | tooLargeToWiden _ => .wrongType
  | emptyList _ => .emptyList
  | divisionByZero _ => .divisionByZero
  | tooDeep _ | hostStackExhausted => .depth
  | emptyCall | outsideTemplate _ | spliceOutsideList => .general

-- What the message shows: the offending expression, or the limit.
def shown? : EvalError → Option Expr
  | notCallable e | notAName e | notParameters e | tailNotList e | notArguments _ e
  | notANumber _ e | notAList _ e => some e
  | tooDeep limit => some (.number (.int limit))
  | _ => none

-- A message that would show an expression without text cannot be made.
def printable (error : EvalError) : Bool :=
  match error.shown? with
  | some e => e.printable
  | none => true

def message : EvalError → String
  | unbound name => "Cannot lookup unbound symbol " ++ name
  | emptyCall => "Cannot evaluate an empty list"
  | notCallable e => "Cannot apply non-procedure " ++ e.render
  | argumentCount expected got =>
    "Expected " ++ toString expected ++ " argument(s), got " ++ toString got
  | operandCount form => form.operandRule
  | notAName e => "def expects a symbol name, got " ++ e.render
  | notParameters e => "Parameter list expected, got " ++ e.render
  | tailNotList e => "cons expects a list as its second argument, got " ++ e.render
  | outsideTemplate form => form.keyword ++ " not valid outside of quasiquote"
  | spliceOutsideList => "unquotesplicing is only valid inside a list"
  | spliceNotList => "unquotesplicing must produce a list"
  | notArguments p e => p.name ++ " expects an argument list, got " ++ e.render
  | noArguments p => p.name ++ " requires at least 1 argument"
  | notOneArgument p => p.name ++ " requires exactly 1 argument"
  | notANumber p e => "All arguments to " ++ p.name ++ " must be numbers, got " ++ e.render
  | notAList p e => p.name ++ " expects a list, got " ++ e.render
  | tooLargeToWiden p => p.name ++ ": integer too large to convert to float"
  | emptyList p => p.name ++ ": list is empty"
  | divisionByZero p => p.name ++ ": division by zero"
  | tooDeep limit => "Maximum evaluation depth " ++ toString limit ++ " exceeded"
  | hostStackExhausted => "Python recursion limit reached during evaluation"

end EvalError

end Lisplet
