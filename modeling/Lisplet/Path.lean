namespace Lisplet

-- A file path as it is written, without empty and single-dot parts. Double dots stay, for what
-- they mean depends on the directories.
structure Path where
  root : String
  parts : List String
deriving DecidableEq, Repr

namespace Path

-- The parts of a text between separators, empty ones included.
def split (separator : Char) : List Char → List (List Char)
  | [] => [[]]
  | c :: rest =>
    if c = separator then [] :: split separator rest
    else match split separator rest with
      | [] => [[c]]
      | part :: parts => (c :: part) :: parts

-- Exactly two separators in front are a root of their own.
def rootOf (chars : List Char) : String :=
  match (chars.takeWhile (· == '/')).length with
  | 0 => ""
  | 2 => "//"
  | _ => "/"

def ofText (text : String) : Path :=
  let parts := (split '/' text.toList).filter fun part => part ≠ [] ∧ part ≠ ['.']
  ⟨rootOf text.toList, parts.map String.ofList⟩

-- No name in a path and no path as a whole may be longer, in bytes.
def maxName : Nat := 255

def maxLength : Nat := 4095

def isLongName (part : String) : Bool := maxName < part.utf8ByteSize

def isAbsolute (path : Path) : Bool := path.root != ""

def text (path : Path) : String :=
  if path.root = "" ∧ path.parts = [] then "." else path.root ++ "/".intercalate path.parts

def isLong (path : Path) : Bool := maxLength < path.text.utf8ByteSize

-- No name holds a null character, so a path with one leads nowhere.
def hasNull (path : Path) : Bool := path.parts.any fun part => part.toList.contains '\x00'

-- The second path as seen from the first.
def join (base path : Path) : Path :=
  if path.isAbsolute then path else ⟨base.root, base.parts ++ path.parts⟩

end Path

end Lisplet
