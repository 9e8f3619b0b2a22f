import ExprTyping.Token.Scan
import ExprTyping.Ty.Interval
import ExprTyping.Ty.Shape

/-!
# Reading type annotations

An annotation is the name of a scalar type, `matrix(rows, cols)` with the word in any case, or an
interval such as `[0, inf)`. An annotation that ends too early is an error, as nothing more will
follow it.
-/

namespace ExprTyping

/-- What can be wrong with an annotation. -/
inductive TypeTextError where
  /-- A word that starts no annotation. -/
  | unexpectedSymbol (found : Tok)
  /-- A name that is no type. -/
  | unknownType (name : Text)
  /-- Another word than the one that is due; `wanted` is the name of its kind. -/
  | expected (wanted : String) (found : Tok)
  /-- An interval that is not closed by a bracket or a parenthesis. -/
  | expectedClose (found : Tok)
  /-- A word that is no bound. -/
  | expectedBound (found : Tok)
  /-- A matrix without rows or columns. -/
  | nonpositiveDimension
  /-- Bounds that bound no interval. -/
  | invalidInterval (error : TypeError Binary64)
  /-- A word behind a complete annotation. -/
  | unexpectedAfter (found : Tok)
  /-- The annotation ended too early. -/
  | incomplete (source : Text)
  deriving DecidableEq, Repr

/-- Why no annotation was read. -/
inductive TypeTextFailure where
  /-- A word could not be read. -/
  | scan (fault : ScanFault)
  /-- A word or a value at a wrong place. -/
  | misplaced (error : TypeTextError) (pos : Pos)
  /-- The items ended too early. -/
  | ended
  deriving DecidableEq, Repr

namespace TypeText

/-- Reads a part of an annotation off the front of the items. -/
abbrev Parse (α : Type) := StateT (List Item) (Except TypeTextFailure) α

/-- Stops at a word or a value that is wrong at its place. -/
def refuse {α : Type} (error : TypeTextError) (pos : Pos) : Parse α :=
  fun _ => .error (.misplaced error pos)

/-- Reads one token. -/
def token : Parse Token
  | [] => .error .ended
  | .fault f :: _ => .error (.scan f)
  | .token t :: rest => .ok (t, rest)

/-- Reads the token that is due. -/
def expect (wanted : Tok) : Parse Unit := do
  let t ← token
  if t.tok = wanted then pure () else refuse (.expected wanted.kind t.tok) t.pos

/-- Reads an integer, with its position. -/
def integer : Parse (Int × Pos) := do
  let t ← token
  match t.tok with
  | .integer n => pure (n.toInt, t.pos)
  | found => refuse (.expected "integer" found) t.pos

/-- Reads `(rows, cols)`. -/
def dimensions : Parse (Ty Binary64) := do
  expect .openParen
  let (rows, pos) ← integer
  expect .comma
  let (cols, _) ← integer
  expect .closeParen
  match Shape.make? rows cols with
  | some shape => pure (.matrix shape)
  | none => refuse .nonpositiveDimension pos

/-- Whether a name is the word `matrix` in any case. -/
def isMatrixWord (name : Text) : Bool :=
  (Text.toChars name).map Char.toLower == "matrix".toList

/-- The value of a bound without its sign. -/
def boundValue? : Tok → Option Binary64
  | .integer n => some (.ofInt n.toInt)
  | .real x => some x
  | .ident name => if name = Text.ofString "inf" then some .infinity else none
  | _ => none

/-- The bound that a token is, if it is one. -/
def boundOf (negative : Bool) (t : Token) : Parse Binary64 :=
  match boundValue? t.tok with
  | some x => pure (if negative then x.neg else x)
  | none => refuse (.expectedBound t.tok) t.pos

/-- Reads a bound: a number or `inf`, perhaps under a minus sign. -/
def bound : Parse Binary64 := do
  let t ← token
  if t.tok = .minus then boundOf true (← token) else boundOf false t

/-- Reads how an interval closes; true if its upper bound belongs to it. -/
def closing : Parse Bool := do
  let t ← token
  match t.tok with
  | .closeBracket => pure true
  | .closeParen => pure false
  | found => refuse (.expectedClose found) t.pos

/-- Reads an interval behind its opening word at `pos`. -/
def interval (includesLow : Bool) (pos : Pos) : Parse (Ty Binary64) := do
  let low ← bound
  expect .comma
  let high ← bound
  let includesHigh ← closing
  match Interval.make low high includesLow includesHigh with
  | .ok iv => pure (.interval iv)
  | .error e => refuse (.invalidInterval e) pos

/-- Reads an annotation. -/
def read : Parse (Ty Binary64) := do
  let t ← token
  match t.tok with
  | .ident name =>
    if isMatrixWord name then dimensions
    else match Ty.ofName? name with
      | some ty => pure ty
      | none => refuse (.unknownType name) t.pos
  | .openBracket => interval true t.pos
  | .openParen => interval false t.pos
  | found => refuse (.unexpectedSymbol found) t.pos

end TypeText

/-- Reads one annotation that takes up the whole source. -/
def Ty.ofText (source : Text) : Except TypeTextFailure (Ty Binary64) :=
  match TypeText.read.run source.items with
  | .error .ended => .error (.misplaced (.incomplete source) .nowhere)
  | .error e => .error e
  | .ok (ty, []) => .ok ty
  | .ok (_, .fault f :: _) => .error (.scan f)
  | .ok (_, .token t :: _) => .error (.misplaced (.unexpectedAfter t.tok) t.pos)

end ExprTyping
