import ExprTyping.Yaml.Mark

/-!
# Plain and quoted scalars

A scalar can go on over several lines. One line break between two words counts as a blank, and
each further one as a line break. In double quotes a backslash at the end of a line cancels the
break.
-/

namespace ExprTyping.Yaml

/-! ## Folding -/

/-- What stands between two words of a scalar. -/
inductive Gap where
  /-- Blanks within a line, last one first. -/
  | blanks (cs : List Char)
  /-- Line breaks: the first one, unless a backslash cancelled it, and the further ones, last one
  first. -/
  | breaks (first : Option Char) (more : List Char)

namespace Gap

/-- No gap. -/
def none : Gap := .blanks []

/-- Whether there is no gap. -/
def isEmpty : Gap → Bool
  | .blanks cs => cs.isEmpty
  | .breaks _ _ => false

/-- Whether there is a line break. -/
def isBroken : Gap → Bool
  | .blanks _ => false
  | .breaks _ _ => true

/-- What a gap stands for, last character first. -/
def folded : Gap → List Char
  | .blanks cs => cs
  | .breaks (some c) more =>
    if c = '\n' then (if more.isEmpty then [' '] else more) else more ++ [c]
  | .breaks Option.none more => more

/-- The gap with one more blank. Blanks around a line break do not count. -/
def blank (c : Char) : Gap → Gap
  | .blanks cs => .blanks (c :: cs)
  | g => g

/-- The gap with one more line break. -/
def lineBreak (c : Char) : Gap → Gap
  | .blanks _ => .breaks (some (breakChar c)) []
  | .breaks first more => .breaks first (breakChar c :: more)

end Gap

/-! ## Plain scalars -/

/-- Whether a character means something inside brackets. -/
def isBracketMark (c : Char) : Bool :=
  c = ',' || c = '[' || c = ']' || c = '{' || c = '}'

/-- Whether a plain scalar can start here. -/
def startsPlain (bracketed : Bool) : List Char → Bool
  | [] => false
  | '-' :: r => !endsWord r
  | '?' :: r => !bracketed && !endsWord r
  | ':' :: r => !bracketed && !endsWord r
  | c :: _ =>
    !(isBlank c || isBreak c || isBracketMark c || "#&*!|>'\"%@`".toList.contains c)

/-- Whether a plain scalar ends in front of these characters. -/
def endsPlain (bracketed : Bool) : List Char → Bool
  | [] => true
  | c :: r => (c = ':' && endsWord r) || (bracketed && (isBracketMark c || c = '?'))

/-- A scalar that was read, with the position behind it. -/
structure Reading where
  /-- The text. -/
  text : List Char
  /-- The position behind the scalar, and behind the gap that follows a plain one. -/
  behind : Mark
  /-- Whether there is a line break between the scalar and the position. -/
  broken : Bool

/-- Reads a plain scalar on: the characters so far in reverse, and the gap behind them. Outside
brackets further lines have to be indented at least by `indent`, and nowhere with a tab. -/
def plainFrom (bracketed : Bool) (indent : Nat) (sofar : List Char) (gap : Gap) :
    List Char → Nat → Nat → Option Reading
  | [], line, col => some ⟨sofar.reverse, ⟨[], line, col⟩, gap.isBroken⟩
  | c :: r, line, col =>
    if isBreak c then plainFrom bracketed indent sofar (gap.lineBreak c) r (line + 1) 0
    else if isBlank c then
      if gap.isBroken && c = '\t' && col < indent then none
      else plainFrom bracketed indent sofar (gap.blank c) r line (col + 1)
    else
      let outside := !gap.isEmpty &&
        ((!bracketed && col < indent) || c = '#' || (col = 0 && isDocumentMark (c :: r)))
      if outside || endsPlain bracketed (c :: r) then
        some ⟨sofar.reverse, ⟨c :: r, line, col⟩, gap.isBroken⟩
      else plainFrom bracketed indent (c :: gap.folded ++ sofar) .none r line (col + 1)

/-! ## Quoted scalars -/

/-- Reads on behind an opening single quote. A quote inside is written twice; `quote` says that
one has just been read. -/
def singleFrom (quote : Bool) (sofar : List Char) (gap : Gap) :
    List Char → Nat → Nat → Option Reading
  | [], line, col => if quote then some ⟨sofar.reverse, ⟨[], line, col⟩, false⟩ else none
  | c :: r, line, col =>
    if quote then
      if c = '\'' then singleFrom false ('\'' :: sofar) .none r line (col + 1)
      else some ⟨sofar.reverse, ⟨c :: r, line, col⟩, false⟩
    else if col = 0 && isDocumentMark (c :: r) then none
    else if isBreak c then singleFrom false sofar (gap.lineBreak c) r (line + 1) 0
    else if isBlank c then singleFrom false sofar (gap.blank c) r line (col + 1)
    else if c = '\'' then singleFrom true (gap.folded ++ sofar) .none r line (col + 1)
    else singleFrom false (c :: gap.folded ++ sofar) .none r line (col + 1)

/-- The character that a letter behind a backslash stands for. -/
def escaped? (c : Char) : Option Char :=
  match c with
  | '0' => some (Char.ofNat 0x00)
  | 'a' => some (Char.ofNat 0x07)
  | 'b' => some (Char.ofNat 0x08)
  | 't' => some (Char.ofNat 0x09)
  | '\t' => some (Char.ofNat 0x09)
  | 'n' => some (Char.ofNat 0x0A)
  | 'v' => some (Char.ofNat 0x0B)
  | 'f' => some (Char.ofNat 0x0C)
  | 'r' => some (Char.ofNat 0x0D)
  | 'e' => some (Char.ofNat 0x1B)
  | ' ' => some ' '
  | '"' => some '"'
  | '\'' => some '\''
  | '\\' => some '\\'
  | 'N' => some (Char.ofNat 0x85)
  | '_' => some (Char.ofNat 0xA0)
  | 'L' => some (Char.ofNat 0x2028)
  | 'P' => some (Char.ofNat 0x2029)
  | _ => none

/-- How many hexadecimal digits follow a letter behind a backslash. -/
def escapeWidth? (c : Char) : Option Nat :=
  match c with
  | 'x' => some 2
  | 'u' => some 4
  | 'U' => some 8
  | _ => none

/-- The value of a hexadecimal digit. -/
def hexValue? (c : Char) : Option Nat :=
  if c.isDigit then some (c.toNat - 0x30)
  else if 'a' ≤ c && c ≤ 'f' then some (c.toNat - 0x61 + 10)
  else if 'A' ≤ c && c ≤ 'F' then some (c.toNat - 0x41 + 10)
  else none

/-- Where reading is with respect to backslashes. -/
inductive Escape where
  /-- Outside. -/
  | outside
  /-- Right behind a backslash. -/
  | backslash
  /-- Before `left + 1` more hexadecimal digits of a number that is `value` so far. -/
  | digits (left value : Nat)

/-- Reads on behind an opening double quote. -/
def doubleFrom (escape : Escape) (sofar : List Char) (gap : Gap) :
    List Char → Nat → Nat → Option Reading
  | [], _, _ => none
  | c :: r, line, col =>
    match escape with
    | .backslash =>
      if isBreak c then doubleFrom .outside sofar (.breaks none []) r (line + 1) 0
      else match escapeWidth? c with
        | some width => doubleFrom (.digits (width - 1) 0) sofar .none r line (col + 1)
        | none =>
          match escaped? c with
          | some d => doubleFrom .outside (d :: sofar) .none r line (col + 1)
          | none => none
    | .digits left value =>
      match hexValue? c with
      | none => none
      | some d =>
        let value := value * 16 + d
        match left with
        | k + 1 => doubleFrom (.digits k value) sofar .none r line (col + 1)
        | 0 =>
          if value.isValidChar then
            doubleFrom .outside (Char.ofNat value :: sofar) .none r line (col + 1)
          else none
    | .outside =>
      if col = 0 && isDocumentMark (c :: r) then none
      else if isBreak c then doubleFrom .outside sofar (gap.lineBreak c) r (line + 1) 0
      else if isBlank c then doubleFrom .outside sofar (gap.blank c) r line (col + 1)
      else if c = '"' then some ⟨(gap.folded ++ sofar).reverse, ⟨r, line, col + 1⟩, false⟩
      else if c = '\\' then doubleFrom .backslash (gap.folded ++ sofar) .none r line (col + 1)
      else doubleFrom .outside (c :: gap.folded ++ sofar) .none r line (col + 1)

end ExprTyping.Yaml
