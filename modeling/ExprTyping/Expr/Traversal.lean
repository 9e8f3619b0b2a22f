import ExprTyping.Expr.Basic

/-!
# Visiting the nodes of an expression

Nodes are visited in pre-order, a call before its arguments. Empty places are never visited.
-/

namespace ExprTyping.Expr

mutual

/-- The nodes visited in pre-order, going into the arguments of a call only if `descend` says so. -/
def visit (descend : Expr → Bool) : Expr → List Expr
  | .lit p l => [.lit p l]
  | .sym p name => [.sym p name]
  | .call p op args =>
    .call p op args :: (if descend (.call p op args) then visitAll descend args else [])
  | .missing => []

/-- The nodes of several expressions, one after the other. -/
def visitAll (descend : Expr → Bool) : List Expr → List Expr
  | [] => []
  | e :: es => visit descend e ++ visitAll descend es

end

/-- All nodes in pre-order. -/
def nodes (e : Expr) : List Expr :=
  e.visit fun _ => true

/-- The number of nodes. -/
def size (e : Expr) : Nat :=
  e.nodes.length

/-- The name of a symbol. -/
def symbolName? : Expr → Option Text
  | .sym _ name => some name
  | _ => none

/-- The names without repetitions, each where it occurs first. -/
def distinct (names : List Text) : List Text :=
  names.foldl (fun seen name => if seen.contains name then seen else seen ++ [name]) []

/-- The symbols of an expression, each once, in the order of their first occurrence. -/
def freeSymbols (e : Expr) : List Text :=
  distinct (e.nodes.filterMap symbolName?)

end ExprTyping.Expr
