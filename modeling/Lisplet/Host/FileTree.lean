import Lisplet.Failure

namespace Lisplet

-- Files below a current directory. An entry without contents is a directory.
structure FileTree where
  entries : List (List String × Option ByteArray)

namespace FileTree

def empty : FileTree := ⟨[]⟩

def file? (tree : FileTree) (place : List String) : Option ByteArray :=
  tree.entries.findSome? fun (parts, contents) => if parts = place then contents else none

-- The directories above an entry need none of their own.
def isDirectory (tree : FileTree) (place : List String) : Bool :=
  place = [] || tree.entries.any fun (parts, contents) =>
    place.isPrefixOf parts && (contents.isNone || parts ≠ place)

-- What a walk along a path comes to. It ends at the first name that is too long to look up.
inductive Found where
  | file (contents : ByteArray)
  | nothing
  | longName

-- No name is known outside the current directory.
def walkOutside : List String → Found
  | [] => .nothing
  | part :: parts =>
    if part = ".." then walkOutside parts
    else if Path.isLongName part then .longName else .nothing

-- Walks the parts of a path one by one, through directories only.
def walk (tree : FileTree) (place : List String) : List String → Found
  | [] =>
    match tree.file? place with
    | some contents => .file contents
    | none => .nothing
  | part :: parts =>
    if !tree.isDirectory place then .nothing
    else if part = ".." then
      if place = [] then walkOutside parts else walk tree place.dropLast parts
    else if Path.isLongName part then .longName
    else walk tree (place ++ [part]) parts

def find (tree : FileTree) (path : Path) : Found :=
  if path.hasNull then .nothing
  else if path.isLong then .longName
  else if path.isAbsolute then walkOutside path.parts
  else tree.walk [] path.parts

def contents? (tree : FileTree) (path : Path) : Except Failure (Option ByteArray) :=
  match tree.find path with
  | .file contents => .ok (some contents)
  | .nothing => .ok none
  | .longName => .error (.nameTooLong path)

end FileTree

end Lisplet
