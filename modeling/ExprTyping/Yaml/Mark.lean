import ExprTyping.Text.Basic

/-!
# Characters and positions of session files

Which characters a session file may hold, which of them end a line, and positions in a file. A
position carries what is left of the file behind it.
-/

namespace ExprTyping.Yaml

/-- Whether a file may hold a character. -/
def isAllowed (c : Char) : Bool :=
  let n := c.toNat
  n = 0x09 || n = 0x0A || n = 0x0D || (0x20 ≤ n && n ≤ 0x7E) || n = 0x85 ||
    (0xA0 ≤ n && n ≤ 0xFFFD) || 0x10000 ≤ n

/-- The characters of a file, where a carriage return counts as a line feed and takes one behind
it along; `none` if there is something a file may not hold. -/
def fileChars? : Text → Option (List Char)
  | [] => some []
  | .stray _ :: _ => none
  | .char '\r' :: .char '\n' :: t => (fileChars? t).map ('\n' :: ·)
  | .char c :: t =>
    if c = '\r' then (fileChars? t).map ('\n' :: ·)
    else if isAllowed c then (fileChars? t).map (c :: ·)
    else none

/-- The mark that may open a file. -/
def isByteOrderMark (c : Char) : Bool :=
  c.toNat = 0xFEFF

/-- The characters of a file without the mark that may open it. -/
def withoutByteOrderMark : Text → Text
  | .char c :: t => if isByteOrderMark c then t else .char c :: t
  | t => t

/-- Whether a character ends a line. -/
def isBreak (c : Char) : Bool :=
  c = '\n' || c.toNat = 0x85 || c.toNat = 0x2028 || c.toNat = 0x2029

/-- What the end of a line contributes to a scalar: the separators of lines and of paragraphs
stand for themselves. -/
def breakChar (c : Char) : Char :=
  if c.toNat = 0x85 then '\n' else c

/-- Whether a character separates words within a line. -/
def isBlank (c : Char) : Bool :=
  c = ' ' || c = '\t'

/-- Whether no word goes on here. -/
def endsWord : List Char → Bool
  | [] => true
  | c :: _ => isBlank c || isBreak c

/-- Whether a line starts a document. -/
def startsDocument (rest : List Char) : Bool :=
  ['-', '-', '-'].isPrefixOf rest && endsWord (rest.drop 3)

/-- Whether a line ends a document. -/
def endsDocument (rest : List Char) : Bool :=
  ['.', '.', '.'].isPrefixOf rest && endsWord (rest.drop 3)

/-- Whether a line starts a document or ends one. -/
def isDocumentMark (rest : List Char) : Bool :=
  startsDocument rest || endsDocument rest

/-- A position in a file, with what is left behind it. -/
structure Mark where
  /-- What is left. -/
  rest : List Char
  /-- The line, from 0. -/
  line : Nat
  /-- The column, from 0. -/
  col : Nat

namespace Mark

/-- The start of a file. -/
def start (cs : List Char) : Mark := ⟨cs, 0, 0⟩

/-- The position one character on. -/
def next (m : Mark) : Mark :=
  match m.rest with
  | [] => m
  | c :: r => if isBreak c then ⟨r, m.line + 1, 0⟩ else ⟨r, m.line, m.col + 1⟩

/-- The position some characters of the same line on. -/
def advance (m : Mark) (n : Nat) : Mark :=
  ⟨m.rest.drop n, m.line, m.col + n⟩

/-- The longest run of characters with a property within a line, and the position behind it. -/
def takeRun (m : Mark) (p : Char → Bool) : List Char × Mark :=
  let run := m.rest.takeWhile p
  (run, m.advance run.length)

/-- Skips blanks within a line. -/
def skipBlanks (m : Mark) : Mark :=
  (m.takeRun isBlank).2

/-- Skips to the end of the line. -/
def skipLine (m : Mark) : Mark :=
  (m.takeRun (!isBreak ·)).2

/-- Whether the next character has a property. -/
def sees (m : Mark) (p : Char → Bool) : Bool :=
  match m.rest with
  | [] => false
  | c :: _ => p c

/-- Skips blanks and a comment, and then the line break that has to follow. -/
def skipToNextLine? (m : Mark) : Option Mark :=
  let m := m.skipBlanks
  let m := if m.sees (· = '#') then m.skipLine else m
  match m.rest with
  | [] => some m
  | c :: _ => if isBreak c then some m.next else none

end Mark

end ExprTyping.Yaml
