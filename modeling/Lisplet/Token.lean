import Lisplet.Text.Blank

namespace Lisplet

namespace Token

-- The characters that are tokens by themselves: parentheses and the quote marks.
def isMark (c : Char) : Bool :=
  c == '(' || c == ')' || c == '\x27' || c == '\x60' || c == ','

-- A run of these is one token. It ends at white space and at every mark, string and comment.
def isRunChar (c : Char) : Bool := !(isBlank c || isMark c || c == '"' || c == ';')

-- The rest of a string after its opening quote, closing quote included, and what follows it.
-- A backslash keeps the next character from closing the string and cannot stand before a newline.
def stringTail? : List Char → Option (List Char × List Char)
  | [] => none
  | '"' :: rest => some (['"'], rest)
  | ['\\'] => none
  | '\\' :: c :: rest =>
    if c = '\n' then none
    else (stringTail? rest).map fun (tail, rest) => ('\\' :: c :: tail, rest)
  | c :: rest => (stringTail? rest).map fun (tail, rest) => (c :: tail, rest)

-- What is read next from a line. A blank line has nothing but white space and a comment left.
inductive Scan where
  | token (text : List Char) (rest : List Char)
  | blank
  | unterminated

-- Only the rest of the line is kept.
def restOfLine (chars : List Char) : List Char := chars.takeWhile (· != '\n')

def scan (line : List Char) : Scan :=
  match line.dropWhile isBlank with
  | [] => .blank
  | ',' :: '@' :: rest => .token [',', '@'] (restOfLine rest)
  | c :: rest =>
    if isMark c then .token [c] (restOfLine rest)
    else if c = ';' then .blank
    else if c = '"' then
      match stringTail? rest with
      | some (tail, rest) => .token ('"' :: tail) (restOfLine rest)
      | none => .unterminated
    else .token (c :: rest.takeWhile isRunChar) (restOfLine (rest.dropWhile isRunChar))

-- White space before a token is lost, and so is everything past the end of the line.
theorem length_restOfLine_le (chars : List Char) : (restOfLine chars).length ≤ chars.length :=
  (List.takeWhile_sublist _).length_le

theorem length_stringTail?_lt {chars tail rest : List Char}
    (h : stringTail? chars = some (tail, rest)) : rest.length < chars.length := by
  fun_induction stringTail? chars generalizing tail rest with
  | case1 => simp at h
  | case2 => simp_all
  | case3 => simp at h
  | case4 => simp at h
  | case5 c chars _ ih =>
    obtain ⟨⟨_, _⟩, hs, he⟩ := Option.map_eq_some_iff.mp h
    cases he
    have := ih hs
    simp only [List.length_cons]
    omega
  | case6 c chars _ _ _ ih =>
    obtain ⟨⟨_, _⟩, hs, he⟩ := Option.map_eq_some_iff.mp h
    cases he
    have := ih hs
    simp only [List.length_cons]
    omega

theorem length_scan_lt {line text rest : List Char} (h : scan line = .token text rest) :
    rest.length < line.length := by
  have hdrop : (line.dropWhile isBlank).length ≤ line.length :=
    (List.dropWhile_sublist _).length_le
  unfold scan at h
  split at h
  · cases h
  · next chars he =>
    cases h
    have := length_restOfLine_le chars
    simp only [he, List.length_cons] at hdrop
    omega
  · next c chars _ he =>
    simp only [he, List.length_cons] at hdrop
    split at h
    · cases h
      have := length_restOfLine_le chars
      omega
    split at h
    · cases h
    split at h
    · split at h
      · next tail chars hs =>
        cases h
        have := length_stringTail?_lt hs
        have := length_restOfLine_le chars
        omega
      · cases h
    · cases h
      have := length_restOfLine_le (chars.dropWhile isRunChar)
      have := (List.dropWhile_sublist (l := chars) isRunChar).length_le
      omega

-- Parentheses stand alone even where no white space surrounds them.
def pad : List Char → List Char
  | [] => []
  | c :: rest => if c = '(' ∨ c = ')' then ' ' :: c :: ' ' :: pad rest else c :: pad rest

-- The runs between white space, the first of them begun by the given characters.
def runs (reversed : List Char) : List Char → List (List Char)
  | [] => if reversed = [] then [] else [reversed.reverse]
  | c :: rest =>
    if isBlank c then
      if reversed = [] then runs [] rest else reversed.reverse :: runs [] rest
    else runs (c :: reversed) rest

end Token

-- Tokens of a whole text that knows no strings, comments or quote marks.
def tokenize (text : String) : List String :=
  (Token.runs [] (Token.pad text.toList)).map String.ofList

end Lisplet
