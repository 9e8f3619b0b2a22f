import ExprTyping.Expr.Basic
import ExprTyping.Ty.Basic

/-!
# Typed expressions

The tree of an expression with a type at every node. A symbol may have been declared without a
type; literals and calls always have one.
-/

namespace ExprTyping

/-- A typed expression. -/
inductive Typed (β : Type) where
  /-- A literal. -/
  | lit (pos : Pos) (value : Literal) (ty : Ty β)
  /-- A symbol with the type it was declared with. -/
  | sym (pos : Pos) (name : Text) (ty : Option (Ty β))
  /-- A call with the type of its result. -/
  | call (pos : Pos) (op : Op) (args : List (Typed β)) (ty : Ty β)
  deriving Repr

namespace Typed

variable {β : Type}

/-- The type of a node. -/
def ty : Typed β → Option (Ty β)
  | .lit _ _ t => some t
  | .sym _ _ t => t
  | .call _ _ _ t => some t

mutual

/-- The expression without its types. -/
def erase : Typed β → Expr
  | .lit p l _ => .lit p l
  | .sym p name _ => .sym p name
  | .call p op args _ => .call p op (eraseAll args)

/-- The expressions without their types. -/
def eraseAll : List (Typed β) → List Expr
  | [] => []
  | t :: ts => t.erase :: eraseAll ts

end

mutual

/-- The nodes in pre-order. -/
def nodes : Typed β → List (Typed β)
  | .lit p l t => [.lit p l t]
  | .sym p name t => [.sym p name t]
  | .call p op args t => .call p op args t :: nodesAll args

/-- The nodes of several expressions, one after the other. -/
def nodesAll : List (Typed β) → List (Typed β)
  | [] => []
  | t :: ts => t.nodes ++ nodesAll ts

end

mutual

/-- The text of a typed expression: each node with its type behind it. -/
def render : Typed Binary64 → Text
  | .lit _ l t => l.render ++ " : " ++ t.render
  | .sym _ name t => name ++ " : " ++ Ty.renderResult t
  | .call _ op args t =>
    op.name ++ "(" ++ Text.join ", " (renderAll args) ++ ") : " ++ t.render

/-- The texts of typed expressions. -/
def renderAll : List (Typed Binary64) → List Text
  | [] => []
  | t :: ts => t.render :: renderAll ts

end

end Typed

end ExprTyping
