import ExprTyping.Text.Basic

/-!
# Nodes of session files

The value of a session file: a tree of scalars, mappings and sequences, in which a node can be
used again under a name.
-/

namespace ExprTyping.Yaml

/-- A value. -/
inductive Node where
  /-- A scalar with its tag, unless that says nothing; `plain` says that it is written without
  quotes and not as a block. -/
  | scalar (tag : Option Text) (text : List Char) (plain : Bool)
  /-- A mapping, with its entries in order. -/
  | mapping (entries : List (Node × Node))
  /-- A sequence. -/
  | sequence (items : List Node)
  /-- A use of a named node; there is no target if the use is part of it. -/
  | reference (name : List Char) (target : Option Node)

namespace Node

/-- The value that is not there. -/
def null : Node := .scalar none [] true

/-- Whether two keys are written alike. Keys that are collections cannot be told apart. -/
def sameKey : Node → Node → Bool
  | .scalar _ a _, .scalar _ b _ => a == b
  | .mapping _, .mapping _ => true
  | .sequence _, .sequence _ => true
  | .reference a _, .reference b _ => a == b
  | _, _ => false

/-- Whether no two keys of some entries are written alike. -/
def keysDiffer : List (Node × Node) → Bool
  | [] => true
  | (key, _) :: rest => !rest.any (fun entry => sameKey key entry.1) && keysDiffer rest

end Node

end ExprTyping.Yaml
