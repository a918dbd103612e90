namespace Lisplet

-- Why a text is not an expression.
inductive ReadError where
  | nothingToRead
  | endInList
  | endAfter (shorthand : String)
  | strayClose
  | unterminatedString
deriving DecidableEq, Repr

namespace ReadError

def message : ReadError → String
  | nothingToRead => "Unexpected EOF"
  | endInList => "Unexpected EOF while reading list"
  | endAfter shorthand => "Unexpected EOF after " ++ shorthand
  | strayClose => "Unexpected ')'"
  | unterminatedString => "Unterminated string literal"

-- More text could mend these.
def isAtEnd : ReadError → Bool
  | nothingToRead | endInList | endAfter _ => true
  | strayClose | unterminatedString => false

end ReadError

end Lisplet
