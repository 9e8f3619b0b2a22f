import ExprTyping.Token.Scan

/-!
# Reading with look-ahead

A lookahead is a cursor with the tokens that have been looked at and not yet read. Reading and
looking differ at the end of the source: reading finds nothing left, while looking finds a token
that stands for the end. Looking at the end keeps nothing, and looking at a fault consumes it, so
only tokens of the source are kept.
-/

namespace ExprTyping

/-- A cursor and the tokens that were looked at. -/
structure Lookahead where
  /-- What is left behind the tokens looked at. -/
  cursor : Cursor
  /-- The tokens looked at, the next one to be read in front. -/
  peeked : List Token
  deriving DecidableEq, Repr

/-- What reading gets. -/
inductive Reading where
  /-- A token or a fault. -/
  | item (i : Item)
  /-- That there is nothing left, at the position reached. -/
  | finished (pos : Pos)
  deriving DecidableEq, Repr

/-- What looking gets. -/
inductive Sight where
  /-- A token of the source. -/
  | token (t : Token)
  /-- The token that stands for the end of the source, at the position reached. -/
  | endToken (pos : Pos)
  /-- A fault. -/
  | fault (f : ScanFault)
  deriving DecidableEq, Repr

namespace Lookahead

/-- Reading starts with nothing looked at. -/
def ofText (t : Text) : Lookahead := ⟨.ofText t, []⟩

/-- Takes the next item off. -/
def next (l : Lookahead) : Reading × Lookahead :=
  match l.peeked with
  | t :: ts => (.item (.token t), ⟨l.cursor, ts⟩)
  | [] =>
    match l.cursor.scan with
    | (some i, behind) => (.item i, ⟨behind, []⟩)
    | (none, behind) => (.finished behind.pos, ⟨behind, []⟩)

/-- Puts a token back in front of all others. -/
def back (l : Lookahead) (t : Token) : Lookahead :=
  ⟨l.cursor, t :: l.peeked⟩

/-- Looks at the next item. A token stays to be read, and a fault is consumed. At the end there is
always a token to look at, which is never read. -/
def peek (l : Lookahead) : Sight × Lookahead :=
  match l.peeked with
  | t :: _ => (.token t, l)
  | [] =>
    match l.next with
    | (.item (.token t), behind) => (.token t, behind.back t)
    | (.item (.fault f), behind) => (.fault f, behind)
    | (.finished pos, behind) => (.endToken pos, behind)

end Lookahead

end ExprTyping
