import Lisplet.Atom
import Lisplet.Reader.Error
import Lisplet.Shorthand

namespace Lisplet

-- An expression that has begun and not ended: a list with the items so far, latest first,
-- or a shorthand that waits for its operand.
inductive Opening where
  | items (reversed : List Expr)
  | operand (token keyword : String)
deriving Inhabited

inductive Progress where
  | done (e : Expr)
  | more (stack : List Opening)
  | failed (error : ReadError)

namespace Reader

-- A whole expression ends every shorthand that waits for it and becomes an item of the
-- innermost list, if there is one.
def complete (e : Expr) : List Opening → Progress
  | [] => .done e
  | .items reversed :: stack => .more (.items (e :: reversed) :: stack)
  | .operand _ keyword :: stack => complete (.list [.symbol keyword, e]) stack

-- One token further. The parentheses come first, so they cannot be shorthands.
def feed (table : Shorthands) (stack : List Opening) (token : String) : Progress :=
  if token = "(" then .more (.items [] :: stack)
  else if token = ")" then
    match stack with
    | .items reversed :: stack => complete (.list reversed.reverse) stack
    | _ => .failed .strayClose
  else match table.find? token with
    | some keyword => .more (.operand token keyword :: stack)
    | none => complete (atom token) stack

-- What is wrong if the tokens end here.
def endError : List Opening → ReadError
  | [] => .nothingToRead
  | .items _ :: _ => .endInList
  | .operand token _ :: _ => .endAfter token

def readTokensFrom (table : Shorthands) (stack : List Opening) :
    List String → Except ReadError Expr × List String
  | [] => (.error (endError stack), [])
  | token :: rest =>
    match feed table stack token with
    | .done e => (.ok e, rest)
    | .more stack => readTokensFrom table stack rest
    | .failed error => (.error error, rest)

-- One expression from the front of the tokens, and the tokens after it.
def readTokens (table : Shorthands) (tokens : List String) :
    Except ReadError Expr × List String := readTokensFrom table [] tokens

end Reader

end Lisplet
