import ExprTyping.Expr.Typed
import ExprTyping.Text.Quoted

/-!
# Dumps of typed expressions

A dump shows a typed tree with all that its nodes hold, one field a line. Nodes from the sixth
level on are cut off.

Types are shared: all nodes of one scalar type share it, and all uses of a symbol share the type
it was declared with; the matrix or interval of a literal or a call is its own. A shared type
that was last written out further up, at a level closer to the root, is abbreviated.
-/

namespace ExprTyping.Dump

/-- A type that several nodes can share. -/
inductive Shared where
  /-- A scalar type, shared by all nodes that have it. -/
  | scalar (name : String)
  /-- The type of a symbol, shared by all its uses. -/
  | declared (symbol : Text)
  deriving DecidableEq, Repr

/-- The levels at which shared types were last written out. -/
abbrev Levels := List (Shared × Nat)

/-- The level at which a type was last written out. -/
def Levels.last? (levels : Levels) (s : Shared) : Option Nat :=
  (levels.find? fun entry => entry.1 == s).map Prod.snd

/-- The level from which on nodes are cut off. -/
def maxLevel : Nat := 5

/-- The blanks in front of a line. -/
def margin (steps : Nat) : Text :=
  List.replicate (4 * steps) (.char ' ')

/-- The kind of a type. -/
def kindName : Ty Binary64 → Text
  | .scalar _ => "types.Simple"
  | .matrix _ => "types.Matrix"
  | .interval _ => "types.Interval"

/-- The name of a truth value. -/
def boolName (b : Bool) : Text :=
  if b then "true" else "false"

/-- What a type holds. -/
def content : Ty Binary64 → Text
  | .scalar name => "Name:" ++ Text.quote name
  | .matrix s => "Rows:" ++ Text.ofInt s.rows ++ ", Cols:" ++ Text.ofInt s.cols
  | .interval iv =>
    "Low:" ++ iv.low.render ++ ", High:" ++ iv.high.render ++
      ", IncludesLow:" ++ boolName iv.includesLow ++ ", IncludesHigh:" ++ boolName iv.includesHigh

/-- A type with its content in braces. -/
def braced (t : Ty Binary64) (inner : Text) : Text :=
  "&" ++ kindName t ++ "\x7b" ++ inner ++ "\x7d"

/-- What a node shares its type by; `symbol` is the name of a node that is a symbol. -/
def sharedBy (symbol : Option Text) : Ty Binary64 → Option Shared
  | .scalar name => some (.scalar name)
  | _ => symbol.map .declared

/-- Writes the type of a node at a level. -/
def writeTy (level : Nat) (symbol : Option Text) (levels : Levels) (t : Ty Binary64) :
    Text × Levels :=
  match sharedBy symbol t with
  | none => (braced t (content t), levels)
  | some s =>
    -- An abbreviated type was not written out, so that its level stays.
    if (levels.last? s).any (· < level) then (braced t "(CYCLIC REFERENCE)", levels)
    else (braced t (content t), (s, level) :: levels)

/-- Writes a place. -/
def writePos (p : Pos) : Text :=
  "ast.LineInfo\x7bLine:" ++ Text.ofInt p.line ++ ", Column:" ++ Text.ofInt p.column ++ "\x7d"

/-- Writes a node at a level from the lines of its fields. -/
def writeNode (level : Nat) (name : Text) (fields : List Text) : Text :=
  "&ast." ++ name ++ "\x7b\n" ++
    Text.join [] (fields.map fun f => margin (2 * level + 1) ++ f ++ ",\n") ++
    margin (2 * level) ++ "\x7d"

/-- The lines of the value of a literal. -/
def literalFields (l : Literal) : List Text :=
  ["Kind:     " ++ Text.ofInt l.kind.code, "Int:      " ++ Text.ofInt l.int.toInt,
    "Float:    " ++ l.float.render]

mutual

/-- Writes a typed expression at a level. -/
def write (level : Nat) (levels : Levels) : Typed Binary64 → Text × Levels
  | .lit p l t =>
    if maxLevel ≤ level then ("&!%v(DEPTH EXCEEDED)", levels)
    else
      let (ty, levels) := writeTy level none levels t
      (writeNode level "TypedLiteral"
        (["LineInfo: " ++ writePos p] ++ literalFields l ++ ["Type:     " ++ ty]), levels)
  | .sym p name t =>
    if maxLevel ≤ level then ("&!%v(DEPTH EXCEEDED)", levels)
    else
      let (ty, levels) := match t with
        | some t => writeTy level (some name) levels t
        | none => ("nil", levels)
      (writeNode level "TypedSymbol"
        ["LineInfo: " ++ writePos p, "Name:     " ++ Text.quote name, "Type:     " ++ ty], levels)
  | .call p op args t =>
    if maxLevel ≤ level then ("&!%v(DEPTH EXCEEDED)", levels)
    else
      -- The arguments come first, and their types count as written out before that of the call.
      let (inner, levels) := writeAll (level + 1) levels args
      let (ty, levels) := writeTy level none levels t
      (writeNode level "TypedCall"
        ["LineInfo: " ++ writePos p, "Op:       " ++ Text.ofInt op.code,
          "Args:     \x7b\n" ++ inner ++ margin (2 * level + 1) ++ "\x7d",
          "Type: " ++ ty], levels)

/-- Writes arguments at a level, one after the other. -/
def writeAll (level : Nat) (levels : Levels) : List (Typed Binary64) → Text × Levels
  | [] => ([], levels)
  | t :: ts =>
    let (first, levels) := write level levels t
    let (rest, levels) := writeAll level levels ts
    (margin (2 * level) ++ first ++ ",\n" ++ rest, levels)

end

end ExprTyping.Dump

namespace ExprTyping

/-- The dump of a typed expression. -/
def Typed.dump (t : Typed Binary64) : Text :=
  (Dump.write 0 [] t).1

end ExprTyping
