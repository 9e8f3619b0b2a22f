import ExprTyping.Yaml.Scalar

/-!
# Block scalars

A block scalar is a bar or a greater-than sign and the indented lines below it. Behind a bar the
lines are kept as they are; behind the other sign they are folded, except around lines that start
with a blank. The header can say how far the lines are indented, and whether line breaks at the
end are kept or dropped.
-/

namespace ExprTyping.Yaml

/-- What becomes of the line breaks at the end. -/
inductive Chomping where
  /-- All are dropped. -/
  | strip
  /-- The first one is kept. -/
  | clip
  /-- All are kept. -/
  | keep
  deriving DecidableEq

/-- The header of a block scalar. -/
structure BlockHeader where
  /-- Whether lines are kept as they are. -/
  literal : Bool
  /-- What becomes of the line breaks at the end. -/
  chomping : Chomping
  /-- The least indentation of the lines. -/
  least : Nat

/-- The sign for the end of a block scalar. -/
def chomping? (c : Char) : Option Chomping :=
  if c = '+' then some .keep else if c = '-' then some .strip else none

/-- Reads the signs behind the bar: one for the end and one for the indentation, in any order. An
indentation of zero is refused. -/
def blockSigns : List Char → Option (Chomping × Option Nat × Nat)
  | [] => some (.clip, none, 0)
  | c :: r =>
    match chomping? c with
    | some chomping =>
      match r with
      | d :: _ =>
        if d = '0' then none
        else if d.isDigit then some (chomping, some (d.toNat - 0x30), 2)
        else some (chomping, none, 1)
      | [] => some (chomping, none, 1)
    | none =>
      if c = '0' then none
      else if c.isDigit then
        match r.head?.bind chomping? with
        | some chomping => some (chomping, some (c.toNat - 0x30), 2)
        | none => some (.clip, some (c.toNat - 0x30), 1)
      else some (.clip, none, 0)

/-- A block scalar that has been read in part. -/
structure BlockState where
  /-- The text so far, last character first. -/
  text : List Char
  /-- The break at the end of the last line. -/
  lastBreak : Option Char
  /-- The breaks of the empty lines below it, last one first. -/
  emptyLines : List Char
  /-- Whether the last line starts with a blank. -/
  afterBlank : Bool

namespace BlockState

/-- Nothing has been read. -/
def start : BlockState := ⟨[], none, [], false⟩

/-- Goes on with a line that starts with `c`. -/
def newLine (literal : Bool) (c : Char) (b : BlockState) : BlockState :=
  let joined :=
    if !literal && !b.afterBlank && !isBlank c && b.lastBreak = some '\n' then
      if b.emptyLines.isEmpty then ' ' :: b.text else b.text
    else b.lastBreak.toList ++ b.text
  ⟨c :: (b.emptyLines ++ joined), none, [], isBlank c⟩

/-- The whole text. -/
def finish (chomping : Chomping) (b : BlockState) : List Char :=
  let body := match chomping with
    | .strip => b.text
    | .clip => b.lastBreak.toList ++ b.text
    | .keep => b.emptyLines ++ b.lastBreak.toList ++ b.text
  body.reverse

end BlockState

/-- Reads the lines of a block scalar. Outside a line, `indent` is the indentation of the lines,
0 as long as it is not known: it is that of the first line that is not empty, but no less than
that of the longest line of blanks above it, and no less than the header's least one. -/
def blockFrom (h : BlockHeader) (indent widest : Nat) (inLine : Bool) (b : BlockState) :
    List Char → Nat → Nat → Option Reading
  | [], line, col => some ⟨b.finish h.chomping, ⟨[], line, col⟩, true⟩
  | c :: r, line, col =>
    if inLine then
      if isBreak c then
        blockFrom h indent widest false { b with lastBreak := some (breakChar c) } r
          (line + 1) 0
      else
        blockFrom h indent widest true { b with text := c :: b.text } r line (col + 1)
    else
      let inside := indent = 0 || col < indent
      if inside && c = ' ' then blockFrom h indent widest false b r line (col + 1)
      else if inside && c = '\t' then none
      else if isBreak c then
        blockFrom h indent (max widest col) false
          { b with emptyLines := breakChar c :: b.emptyLines } r (line + 1) 0
      else
        let indent := if indent = 0 then max (max widest col) h.least else indent
        if col = indent then
          blockFrom h indent widest true (b.newLine h.literal c) r line (col + 1)
        else some ⟨b.finish h.chomping, ⟨c :: r, line, col⟩, true⟩

/-- Reads a block scalar from its bar on, where `around` is the indentation of what is around it,
counted from 1. -/
def blockScalar (literal : Bool) (around : Nat) (m : Mark) : Option Reading := do
  let m := m.advance 1
  let (chomping, increment, signs) ← blockSigns m.rest
  let m ← (m.advance signs).skipToNextLine?
  let indent := match increment with
    | some n => (around - 1) + n
    | none => 0
  blockFrom ⟨literal, chomping, max around 1⟩ indent 0 false .start m.rest m.line m.col

end ExprTyping.Yaml
