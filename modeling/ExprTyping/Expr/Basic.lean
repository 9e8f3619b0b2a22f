import ExprTyping.Binary64.Decimal
import ExprTyping.Op
import ExprTyping.Position

/-!
# Expressions

An expression is a literal, a symbol or the call of an operator, each with its position. A place
in a tree can also be left empty, by whoever builds the tree; reading a source never does so.
-/

namespace ExprTyping

/-- What a literal is. -/
inductive LiteralKind where
  /-- An integer. -/
  | int
  /-- A real number. -/
  | real
  /-- A number that stands for no kind. Such a literal counts as a real one. -/
  | other (code : Int) (outside : ¬(0 ≤ code ∧ code < 2))
  deriving DecidableEq, Repr

namespace LiteralKind

/-- The number of a kind. -/
def code : LiteralKind → Int
  | .int => 0
  | .real => 1
  | .other code _ => code

/-- The name of a kind. -/
def name : LiteralKind → String
  | .int => "int"
  | _ => "real"

end LiteralKind

/-- A number in an expression. A literal has room for an integer and for a real number, and its kind
says which of them counts. The other one is kept as it is. -/
structure Literal where
  /-- What the literal is. -/
  kind : LiteralKind
  /-- The value of an integer literal. -/
  int : Int64
  /-- The value of any other literal. -/
  float : Binary64
  deriving DecidableEq, Repr

namespace Literal

/-- An integer literal. -/
def ofInt (n : Int64) : Literal := ⟨.int, n, .zero⟩

/-- A real literal. -/
def ofReal (x : Binary64) : Literal := ⟨.real, 0, x⟩

/-- The literal under a minus sign. Both numbers change their signs, whichever of them counts. -/
def negate (l : Literal) : Literal := ⟨l.kind, -l.int, l.float.neg⟩

/-- Whether the text of a number already shows that it is a real one. -/
def showsReal (cs : List Char) : Bool :=
  cs.any fun c => c == '.' || c == 'e' || c == 'E' || c == 'n' || c == 'N'

/-- The text of a literal. A real literal is told from an integer by a point, an exponent or a
word such as `NaN`; where it has none of these, `.0` is added. -/
def render (l : Literal) : Text :=
  match l.kind with
  | .int => Text.ofInt l.int.toInt
  | _ => if showsReal l.float.toChars then l.float.render else l.float.render ++ ".0"

end Literal

/-- An expression. -/
inductive Expr where
  /-- A literal. -/
  | lit (pos : Pos) (value : Literal)
  /-- A symbol. -/
  | sym (pos : Pos) (name : Text)
  /-- A call, with its arguments in order. -/
  | call (pos : Pos) (op : Op) (args : List Expr)
  /-- An empty place. -/
  | missing
  deriving Repr, Inhabited

namespace Expr

/-- Where an expression stands. -/
def pos : Expr → Pos
  | .lit p _ => p
  | .sym p _ => p
  | .call p _ _ => p
  | .missing => .nowhere

mutual

/-- Whether no place of the tree is empty. -/
def isComplete : Expr → Bool
  | .lit _ _ => true
  | .sym _ _ => true
  | .call _ _ args => allComplete args
  | .missing => false

/-- Whether no place of any of the trees is empty. -/
def allComplete : List Expr → Bool
  | [] => true
  | e :: es => e.isComplete && allComplete es

end

mutual

/-- The text of a complete expression, with every call written out. -/
def render : Expr → Text
  | .lit _ l => l.render
  | .sym _ name => name
  | .call _ op args => op.name ++ "(" ++ Text.join ", " (renderAll args) ++ ")"
  | .missing => []

/-- The texts of expressions. -/
def renderAll : List Expr → List Text
  | [] => []
  | e :: es => e.render :: renderAll es

end

end Expr

end ExprTyping
