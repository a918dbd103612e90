import Lisplet.Failure
import Lisplet.Path
import Lisplet.Text.DecimalDigit
import Lisplet.Text.UpperCase

namespace Lisplet

-- What a program sees of the machine it runs on.
structure Host where
  settings : List (String × String)
  contents? : Path → Except Failure (Option ByteArray)

namespace Host

def lookup? (host : Host) (name : String) : Option String := host.settings.lookup name

-- An empty setting is no setting.
def setting? (host : Host) (name : String) : Option String :=
  (host.lookup? name).filter fun text => text ≠ ""

def defaultDepth : Int := 200

-- White space around a setting that is a number. The information separators are not skipped.
def isPadding (c : Char) : Bool := isBlank c && !(0x1C ≤ c.toNat && c.toNat ≤ 0x1F)

def stripPadding (chars : List Char) : List Char :=
  ((chars.dropWhile isPadding).reverse.dropWhile isPadding).reverse

-- Digits of any script, with single underscores between them.
def groupedDigits? : List Char → Option (List Nat)
  | [] => none
  | [c] => (decimalDigit? c).map fun digit => [digit]
  | c :: '_' :: rest => do
    let digit ← decimalDigit? c
    return digit :: (← groupedDigits? rest)
  | c :: rest => do
    let digit ← decimalDigit? c
    return digit :: (← groupedDigits? rest)

-- A whole number as settings write it.
def integer? (text : String) : Option Int := do
  let (negative, rest) := splitSign (stripPadding text.toList)
  let digits ← groupedDigits? rest
  if digits.length ≤ Number.digitLimit then
    let size := digits.foldl (fun (n : Nat) digit => 10 * n + digit) 0
    return if negative then -(size : Int) else size
  else none

def maxDepth (host : Host) : Except Failure Int :=
  match host.setting? "DOTLISP_MAX_DEPTH" with
  | none => .ok defaultDepth
  | some text =>
    match integer? text with
    | none => .error (.depthNotInteger text)
    | some depth => if depth < 1 then .error (.depthNotPositive depth) else .ok depth

-- Unlike other settings an empty level counts; it is the name of no level.
def logLevel (host : Host) : String :=
  upperCase ((host.lookup? "DOTLISP_LOG_LEVEL").getD "WARNING")

-- The directories in which sources are looked for, in order.
def loadRoots (host : Host) : List Path :=
  match host.setting? "DOTLISP_PATH" with
  | none => []
  | some text =>
    let texts := (Path.split ':' text.toList).map stripBlanks
    (texts.filter (· ≠ [])).map fun chars => Path.ofText (String.ofList chars)

-- A source is looked for as it is given first. Only a relative path is looked for elsewhere.
def places (host : Host) (text : String) : List Path :=
  let path := Path.ofText text
  path :: if path.isAbsolute then [] else host.loadRoots.map fun root => root.join path

-- The first of several files that exists, with its contents.
def firstFile? (host : Host) : List Path → Except Failure (Option (Path × ByteArray))
  | [] => .ok none
  | path :: rest => do
    match ← host.contents? path with
    | some contents => return some (path, contents)
    | none => host.firstFile? rest

def resolve? (host : Host) (text : String) : Except Failure (Option (Path × ByteArray)) :=
  host.firstFile? (host.places text)

end Host

end Lisplet
