import Lisplet.Expr.Basic
import Lisplet.Shorthand
import Lisplet.Text.Quoted

namespace Lisplet

-- A value of a host program. Only its numbers are numbers of the language.
inductive HostValue where
  | int (n : Int)
  | float (x : Binary64)
  | bool (b : Bool)
  | none
  | text (content : String)

-- What a host program can get wrong about data.
inductive AccessError where
  | notANumber (value : HostValue)
  | noShorthand (token : String)
  | indexOutOfRange
  | indexTooLarge
  | tooLargeToWiden

def HostValue.render : HostValue → String
  | int n => (Number.int n).render
  | float x => x.render
  | bool b => if b then "True" else "False"
  | none => "None"
  | text content => quoted content

def AccessError.message : AccessError → String
  | notANumber value => "Number expects an int or float, got " ++ value.render
  | noShorthand token => "No reader macro defined for " ++ quoted token
  | indexOutOfRange => "tuple index out of range"
  | indexTooLarge => "cannot fit 'int' into an index-sized integer"
  | tooLargeToWiden => "int too large to convert to float"

namespace Number

-- Truth values are no numbers.
def ofHost : HostValue → Except AccessError Number
  | .int n => .ok (.int n)
  | .float x => .ok (.float x)
  | value => .error (.notANumber value)

def widen (n : Number) : Except AccessError Binary64 :=
  match n.widen? with
  | some x => .ok x
  | none => .error .tooLargeToWiden

end Number

namespace Expr

-- An index is a signed integer of 64 bits.
def isIndex (n : Int) : Bool := -9223372036854775808 ≤ n && n < 9223372036854775808

def nth (items : List Expr) (index : Int) : Except AccessError Expr :=
  if isIndex index then
    match nth? items index with
    | some item => .ok item
    | none => .error .indexOutOfRange
  else .error .indexTooLarge

end Expr

namespace Shorthands

def expand (table : Shorthands) (token : String) (e : Expr) : Except AccessError Expr :=
  match table.find? token with
  | some keyword => .ok (.list [.symbol keyword, e])
  | none => .error (.noShorthand token)

end Shorthands

end Lisplet
