namespace Lisplet

namespace Utf8

inductive Reason where
  | startByte
  | continuationByte
  | endOfData
deriving DecidableEq, Repr

def Reason.message : Reason → String
  | startByte => "invalid start byte"
  | continuationByte => "invalid continuation byte"
  | endOfData => "unexpected end of data"

-- The first character of some bytes, or what is wrong with them: how many bytes are to blame,
-- and how many had to be seen to tell. A sequence that is cut short is only told by the end.
inductive Step where
  | char (c : Char) (length : Nat)
  | bad (reason : Reason) (length : Nat) (seen : Option Nat)

-- The number of bytes that a first byte announces.
def announced? (b : Nat) : Option Nat :=
  if b < 0x80 then some 1
  else if b < 0xC2 then none
  else if b < 0xE0 then some 2
  else if b < 0xF0 then some 3
  else if b < 0xF5 then some 4
  else none

-- The second byte rules out overlong forms, surrogates and numbers past the last character.
def secondFits (first second : Nat) : Bool :=
  0x80 ≤ second && second < 0xC0 && (first != 0xE0 || 0xA0 ≤ second) &&
    (first != 0xED || second < 0xA0) && (first != 0xF0 || 0x90 ≤ second) &&
    (first != 0xF4 || second < 0x90)

def continues (b : Nat) : Bool := 0x80 ≤ b && b < 0xC0

-- The bits that a first byte contributes.
def leadBits (length b : Nat) : Nat :=
  match length with
  | 2 => b - 0xC0
  | 3 => b - 0xE0
  | 4 => b - 0xF0
  | _ => b

-- Continuation bytes after the second one, with the value and the count of bytes so far.
def follow (length value count : Nat) : List Nat → Step
  | [] => if length ≤ count then .char (Char.ofNat value) length else .bad .endOfData count none
  | b :: rest =>
    if length ≤ count then .char (Char.ofNat value) length
    else if continues b then follow length (value * 64 + (b - 0x80)) (count + 1) rest
    else .bad .continuationByte count (some (count + 1))

-- A surrogate is not told before its third byte.
def step (first : Nat) (rest : List Nat) : Step :=
  match announced? first with
  | none => .bad .startByte 1 (some 1)
  | some 1 => .char (Char.ofNat first) 1
  | some length =>
    match rest with
    | [] => .bad .endOfData 1 none
    | second :: rest =>
      if secondFits first second then
        follow length (leadBits length first * 64 + (second - 0x80)) 2 rest
      else if first = 0xED ∧ continues second then
        .bad .continuationByte 1 (if rest = [] then none else some 3)
      else .bad .continuationByte 1 (some 2)

-- What is wrong with a sequence of bytes, and where. The bytes seen are counted from the
-- beginning; none stands for all of them and the end.
structure Fault where
  reason : Reason
  start : Nat
  bytes : List Nat
  seen : Option Nat

-- The characters up to the end or the first fault.
def decodeFrom (start : Nat) (bytes : List Nat) : List Char × Option Fault :=
  match bytes with
  | [] => ([], none)
  | first :: rest =>
    match step first rest with
    | .char c length =>
      let (chars, fault) := decodeFrom (start + length) (rest.drop (length - 1))
      (c :: chars, fault)
    | .bad reason length seen =>
      ([], some ⟨reason, start, (first :: rest).take length, seen.map (start + ·)⟩)
termination_by bytes.length
decreasing_by simp only [List.length_drop, List.length_cons]; omega

def decode (bytes : List Nat) : List Char × Option Fault := decodeFrom 0 bytes

end Utf8

end Lisplet
