namespace Lisplet

-- Tokens that wrap the expression after them: the token t with keyword k makes t x read as (k x).
-- The latest entry for a token counts.
structure Shorthands where
  entries : List (String × String)

namespace Shorthands

def empty : Shorthands := ⟨[]⟩

def define (table : Shorthands) (token keyword : String) : Shorthands :=
  ⟨(token, keyword) :: table.entries⟩

def find? (table : Shorthands) (token : String) : Option String := table.entries.lookup token

def contains (table : Shorthands) (token : String) : Bool := (table.find? token).isSome

-- The quote marks.
def quotes : Shorthands :=
  ⟨[("\x27", "quote"), ("\x60", "quasiquote"), (",", "unquote"), (",@", "unquotesplicing")]⟩

end Shorthands

end Lisplet
