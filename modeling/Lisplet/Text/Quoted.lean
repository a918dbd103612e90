import Lisplet.Text.Printable

namespace Lisplet

-- Text between quotes on one line of visible characters. A message shows a value this way.
namespace Quoted

-- Single quotes, unless the text has some of those and no double ones.
def quoteMark (chars : List Char) : Char :=
  if chars.contains '\x27' && !chars.contains '"' then '"' else '\x27'

def hexDigits (width n : Nat) : List Char :=
  let digits := Nat.toDigits 16 n
  List.replicate (width - digits.length) '0' ++ digits

-- Characters without a visible form are written by their number.
def escape (mark c : Char) : List Char :=
  if c = mark ∨ c = '\\' then ['\\', c]
  else if c = '\n' then ['\\', 'n']
  else if c = '\r' then ['\\', 'r']
  else if c = '\t' then ['\\', 't']
  else if isPrintable c then [c]
  else if c.toNat < 0x100 then '\\' :: 'x' :: hexDigits 2 c.toNat
  else if c.toNat < 0x10000 then '\\' :: 'u' :: hexDigits 4 c.toNat
  else '\\' :: 'U' :: hexDigits 8 c.toNat

end Quoted

def quoted (text : String) : String :=
  let chars := text.toList
  let mark := Quoted.quoteMark chars
  String.ofList (mark :: chars.flatMap (Quoted.escape mark) ++ [mark])

end Lisplet
