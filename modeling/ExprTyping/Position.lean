import ExprTyping.Text.Basic

/-!
# Positions in a source

A position is a line and a column. Reading starts before the first character of line 1, so a
position reached by reading is that of the character read last: columns count characters from 1,
and a line break leads to column 0 of the next line. A position that stands for nothing in a
source has line 0.
-/

namespace ExprTyping

/-- A place in a source. -/
structure Pos where
  /-- The line, from 1. -/
  line : Int
  /-- The column, from 1; 0 right behind a line break. -/
  column : Int
  deriving DecidableEq, Repr, Inhabited

namespace Pos

/-- The place of what comes from no source. -/
def nowhere : Pos := ⟨0, 0⟩

/-- Where reading starts. -/
def start : Pos := ⟨1, 0⟩

/-- The position after one more glyph. -/
def advance (p : Pos) (g : Glyph) : Pos :=
  if g = .char '\n' then ⟨p.line + 1, 0⟩ else ⟨p.line, p.column + 1⟩

/-- The position after reading a text. -/
def after (p : Pos) (t : Text) : Pos :=
  t.foldl advance p

/-- Line and column with a colon between them. -/
def render (p : Pos) : Text :=
  Text.ofInt p.line ++ ":" ++ Text.ofInt p.column

end Pos

end ExprTyping
