import Lisplet.Text.DecimalDigit
import Lisplet.Text.Quoted

namespace Lisplet

-- What a command line asks for. An expression without a text has to be evaluated all the same.
structure Arguments where
  files : List String
  exprs : List (Option String)
  level : Option String

inductive Switch where
  | help | eval | level
deriving DecidableEq, Repr

namespace Switch

def spellings : List (String × Switch) :=
  [("-h", help), ("--help", help), ("-e", eval), ("--eval", eval), ("--log-level", level)]

-- The switch that is spelled with one letter.
def ofLetter? (letter : Char) : Option Switch := spellings.lookup (String.ofList ['-', letter])

def title : Switch → String
  | help => "-h/--help"
  | eval => "-e/--eval"
  | level => "--log-level"

end Switch

inductive UsageError where
  | valueMissing (switch : Switch)
  | valueIgnored (switch : Switch) (text : String)
  | ambiguous (word : String) (spellings : List String)
  | unrecognized (words : List String)

def UsageError.message : UsageError → String
  | valueMissing switch => "argument " ++ switch.title ++ ": expected one argument"
  | valueIgnored switch text =>
    "argument " ++ switch.title ++ ": ignored explicit argument " ++ quoted text
  | ambiguous word spellings =>
    "ambiguous option: " ++ word ++ " could match " ++ ", ".intercalate spellings
  | unrecognized words => "unrecognized arguments: " ++ " ".intercalate words

namespace Arguments

-- What is written behind a switch in its own word. Behind a letter it may be more letters.
inductive Attached where
  | nothing
  | toLetter (text : List Char)
  | toName (text : List Char)

-- The word that makes all words after it plain.
def terminator : String := "--"

-- What a word of the command line is.
inductive Word where
  | plain
  | terminator
  | switch (switch : Switch) (attached : Attached)
  | unknown

-- The parts of a word before and after its first equals sign.
def cut (chars : List Char) : List Char × Option (List Char) :=
  (chars.takeWhile (· != '='), (chars.dropWhile (· != '=')).tail?)

-- A switch as it is spelled, and what an equals sign sets off from it.
def spelled (name : List Char) (switch : Switch) (value : Option (List Char)) : Word :=
  match name, value with
  | _, none => .switch switch .nothing
  | [_, _], some value => .switch switch (.toLetter value)
  | _, some value => .switch switch (.toName value)

-- Negative numbers are plain words. A newline may follow the digits.
def isNegativeNumber (chars : List Char) : Bool :=
  let isDigit := fun c => (decimalDigit? c).isSome
  let chars := if chars.getLast? = some '\n' then chars.dropLast else chars
  match chars with
  | '-' :: rest =>
    let fraction := rest.dropWhile isDigit
    (rest ≠ [] && fraction = []) || match fraction with
      | '.' :: digits => digits ≠ [] && digits.all isDigit
      | _ => false
  | _ => false

-- A word that begins like a switch and is none.
def other (chars : List Char) : Word :=
  if isNegativeNumber chars || chars.contains ' ' then .plain else .unknown

-- Long spellings may be shortened to what no other begins with.
def long (word : String) : Except UsageError Word :=
  let (name, value) := cut word.toList
  match Switch.spellings.filter fun (spelling, _) => name.isPrefixOf spelling.toList with
  | [] => .ok (other word.toList)
  | [(_, switch)] => .ok (spelled name switch value)
  | several => .error (.ambiguous word (several.map Prod.fst))

-- Short spellings are one letter long, and what follows the letter is attached.
def short (word : String) (letter : Char) (rest : List Char) : Word :=
  match Switch.ofLetter? letter with
  | some switch => .switch switch (.toLetter rest)
  | none => other word.toList

def classify (word : String) : Except UsageError Word :=
  match Switch.spellings.lookup word with
  | some switch => .ok (.switch switch .nothing)
  | none =>
    let (name, value) := cut word.toList
    match Switch.spellings.lookup (String.ofList name), word.toList with
    | some switch, _ => .ok (spelled name switch value)
    | none, ['-'] => .ok .plain
    | none, '-' :: '-' :: _ => long word
    | none, '-' :: letter :: rest => .ok (short word letter rest)
    | none, _ => .ok .plain

def classifyAll : List String → Except UsageError (List (Word × String))
  | [] => .ok []
  | word :: rest =>
    if word = terminator then .ok ((.terminator, word) :: rest.map fun word => (.plain, word))
    else do
      let kind ← classify word
      return (kind, word) :: (← classifyAll rest)

def isPlain : Word × String → Bool
  | (.plain, _) | (.terminator, _) => true
  | _ => false

-- Why nothing is to be run.
inductive Stop where
  | help
  | usage (error : UsageError)

-- Letters behind a request for help are switches too. They come to nothing, but what cannot be
-- read as switches is reported instead of the help. The first switch with a value is the last.
def helpAnd (valueFollows : Bool) : List Char → Stop
  | [] => .help
  | letter :: rest =>
    match Switch.ofLetter? letter with
    | some .help => helpAnd valueFollows rest
    | some switch =>
      if rest ≠ [] || valueFollows then .help else .usage (.valueMissing switch)
    | none => .usage (.valueIgnored .help (String.ofList (letter :: rest)))

-- An equals sign with nothing after it gives help a value too.
def helpWith (valueFollows : Bool) : Attached → Stop
  | .nothing => .help
  | .toLetter [] => .usage (.valueIgnored .help "")
  | .toLetter letters => helpAnd valueFollows letters
  | .toName text => .usage (.valueIgnored .help (String.ofList text))

-- The words read so far. There are no files until the first group of them.
structure Partial where
  files : Option (List String)
  exprs : List (Option String)
  level : Option String
  unrecognized : List String

namespace Partial

def empty : Partial := ⟨none, [], none, []⟩

-- A group of plain words is the files, and the first terminator is none of them. Groups after
-- the first have no use.
def takeGroup (sofar : Partial) (group : List String) : Partial :=
  match sofar.files with
  | none => { sofar with files := some (group.erase terminator) }
  | some _ => { sofar with unrecognized := sofar.unrecognized ++ group }

-- A terminator as a value is no value.
def takeValue (sofar : Partial) (switch : Switch) (text : String) : Partial :=
  let value := if text = terminator then none else some text
  match switch with
  | .help => sofar
  | .eval => { sofar with exprs := sofar.exprs ++ [value] }
  | .level => { sofar with level := value }

end Partial

def valueFollows : List (Word × String) → Bool
  | (.plain, _) :: _ => true
  | _ => false

-- Words are taken from left to right, and the first that stops the rest counts.
def takeWords (sofar : Partial) (words : List (Word × String)) : Except Stop Partial :=
  match words with
  | [] => .ok sofar
  | (.unknown, text) :: rest =>
    takeWords { sofar with unrecognized := sofar.unrecognized ++ [text] } rest
  | (.switch .help attached, _) :: rest => .error (helpWith (valueFollows rest) attached)
  | (.switch switch (.toLetter text), _) :: rest | (.switch switch (.toName text), _) :: rest =>
    takeWords (sofar.takeValue switch (String.ofList text)) rest
  | (.switch switch .nothing, _) :: (.plain, value) :: rest =>
    takeWords (sofar.takeValue switch value) rest
  | (.switch switch .nothing, _) :: _ => .error (.usage (.valueMissing switch))
  | word :: rest =>
    let group := word :: rest.takeWhile isPlain
    takeWords (sofar.takeGroup (group.map Prod.snd)) (rest.dropWhile isPlain)
termination_by words.length
decreasing_by
  all_goals simp only [List.length_cons, Nat.lt_add_one]
  · exact Nat.lt_succ_of_lt (Nat.lt_add_one _)
  · exact Nat.lt_succ_of_le (List.dropWhile_sublist _).length_le

def ofWords (words : List String) : Except Stop Arguments :=
  match classifyAll words with
  | .error error => .error (.usage error)
  | .ok classified =>
    match takeWords .empty classified with
    | .error stop => .error stop
    | .ok sofar =>
      if sofar.unrecognized ≠ [] then .error (.usage (.unrecognized sofar.unrecognized))
      else .ok ⟨sofar.files.getD [], sofar.exprs, sofar.level⟩

end Arguments

end Lisplet
