import ExprTyping.Binary64.Decimal
import ExprTyping.Bound.Basic

/-!
# Types

A type is a scalar tag, the shape of a matrix, or an interval of non-negative reals. Types are
compared by what they denote: intervals agree if their bounds are numerically equal and their
flags are the same.

Where no type is known, `none` stands in its place: a symbol can be declared without one, and a
signature can yield none.
-/

namespace ExprTyping

/-- The shape of a matrix. -/
structure Shape where
  /-- The number of rows. -/
  rows : Int
  /-- The number of columns. -/
  cols : Int
  deriving DecidableEq, Repr

/-- The numbers between two bounds, each of which may belong to them or not. -/
structure Interval (β : Type) where
  /-- The lower bound. -/
  low : β
  /-- The upper bound. -/
  high : β
  /-- Whether the lower bound is a member. -/
  includesLow : Bool
  /-- Whether the upper bound is a member. -/
  includesHigh : Bool
  deriving DecidableEq, Repr

/-- A type, with interval bounds in `β`. -/
inductive Ty (β : Type) where
  /-- A scalar tag such as `int`. -/
  | scalar (name : String)
  /-- A matrix shape. -/
  | matrix (shape : Shape)
  /-- An interval. -/
  | interval (iv : Interval β)
  deriving DecidableEq, Repr

namespace Ty

variable {β : Type}

/-- The type of integer literals. -/
def int : Ty β := .scalar "int"

/-- The type of real literals and of scalar arithmetic. -/
def real : Ty β := .scalar "real"

/-- The type of comparisons and connectives. -/
def bool : Ty β := .scalar "bool"

/-- The scalar types that have a name of their own. -/
def ofName? (name : Text) : Option (Ty β) :=
  if name = Text.ofString "int" then some int
  else if name = Text.ofString "real" then some real
  else if name = Text.ofString "bool" then some bool
  else none

end Ty

namespace Interval

variable {β : Type} [Bound β]

/-- Whether two intervals have numerically equal bounds and the same flags. -/
def same (a b : Interval β) : Bool :=
  Bound.eq a.low b.low && Bound.eq a.high b.high &&
    a.includesLow == b.includesLow && a.includesHigh == b.includesHigh

end Interval

namespace Ty

variable {β : Type} [Bound β]

/-- Whether two types denote the same. -/
def same : Ty β → Ty β → Bool
  | .scalar a, .scalar b => a == b
  | .matrix a, .matrix b => a == b
  | .interval a, .interval b => a.same b
  | _, _ => false

/-- Whether both are unknown, or both are known and denote the same. -/
def sameOption : Option (Ty β) → Option (Ty β) → Bool
  | none, none => true
  | some a, some b => a.same b
  | _, _ => false

/-- Whether two lists of types agree place by place. -/
def sameAll : List (Option (Ty β)) → List (Option (Ty β)) → Bool
  | [], [] => true
  | a :: as, b :: bs => sameOption a b && sameAll as bs
  | _, _ => false

end Ty

/-! ## Text -/

/-- The text of a shape. -/
def Shape.render (s : Shape) : Text :=
  "Matrix(" ++ Text.ofInt s.rows ++ ", " ++ Text.ofInt s.cols ++ ")"

namespace Interval

/-- The text of a bound; positive infinity is written as annotations write it. -/
def renderBound (x : Binary64) : Text :=
  if x = .infinity then "inf" else x.render

/-- The text of an interval: a square bracket where the bound belongs to it. -/
def render (iv : Interval Binary64) : Text :=
  (if iv.includesLow then "[" else "(") ++ renderBound iv.low ++ ", " ++ renderBound iv.high ++
    (if iv.includesHigh then "]" else ")")

end Interval

namespace Ty

/-- The text of a type. -/
def render : Ty Binary64 → Text
  | .scalar name => name
  | .matrix s => s.render
  | .interval iv => iv.render

/-- The text of a type in a list of types. -/
def renderOption : Option (Ty Binary64) → Text
  | none => "<nil>"
  | some t => t.render

/-- The text of a type behind an expression or a signature. -/
def renderResult : Option (Ty Binary64) → Text
  | none => "%!s(<nil>)"
  | some t => t.render

/-- The text of a list of types, in parentheses. -/
def renderAll (ts : List (Option (Ty Binary64))) : Text :=
  "(" ++ Text.join ", " (ts.map renderOption) ++ ")"

end Ty

end ExprTyping
