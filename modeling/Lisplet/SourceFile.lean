import Lisplet.Reader.Input
import Lisplet.Text.Utf8

namespace Lisplet

-- Why a file is not text: the bytes to blame and their place among those decoded with them.
structure DecodeError where
  reason : Utf8.Reason
  bytes : List Nat
  position : Nat

namespace DecodeError

def hexByte (b : Nat) : String :=
  let digits := Nat.toDigits 16 b
  String.ofList (List.replicate (2 - digits.length) '0' ++ digits)

def message (error : DecodeError) : String :=
  let place := match error.bytes with
    | [b] => "byte 0x" ++ hexByte b ++ " in position " ++ toString error.position
    | bytes =>
      "bytes in position " ++ toString error.position ++ "-" ++
        toString (error.position + bytes.length - 1)
  "'utf-8' codec can't decode " ++ place ++ ": " ++ error.reason.message

end DecodeError

-- The lines of a text file that can be had before its end or the first fault.
structure SourceFile where
  lines : List (List Char)
  error : Option DecodeError

namespace SourceFile

-- Files are decoded in blocks of this many bytes.
def blockSize : Nat := 8192

-- Each of the three ways to end a line becomes a newline.
def universalNewlines : List Char → List Char
  | [] => []
  | '\r' :: '\n' :: rest => '\n' :: universalNewlines rest
  | c :: rest => (if c = '\r' then '\n' else c) :: universalNewlines rest

-- The characters that end within so many bytes, and how many bytes they take.
def charsWithin (limit : Nat) : List Char → List Char × Nat
  | [] => ([], 0)
  | c :: rest =>
    if c.utf8Size ≤ limit then
      let (chars, size) := charsWithin (limit - c.utf8Size) rest
      (c :: chars, c.utf8Size + size)
    else ([], 0)

-- A fault spoils the block that shows it. Of the blocks before it the complete lines remain;
-- a return at their end might have a newline to come, so it completes none.
def spoiled (chars : List Char) (fault : Utf8.Fault) : SourceFile :=
  let limit := match fault.seen with
    | some seen => (seen - 1) / blockSize * blockSize
    | none => fault.start
  let (kept, size) := charsWithin limit chars
  let kept := if kept.getLast? = some '\r' then kept.dropLast else kept
  let lines := Input.splitLines (universalNewlines kept)
  ⟨lines.filter fun line => line.getLast? == some '\n',
    some ⟨fault.reason, fault.bytes, fault.start - size⟩⟩

def ofBytes (bytes : ByteArray) : SourceFile :=
  match Utf8.decode (bytes.toList.map UInt8.toNat) with
  | (chars, none) => ⟨Input.splitLines (universalNewlines chars), none⟩
  | (chars, some fault) => spoiled chars fault

end SourceFile

end Lisplet
