import ExprTyping.Op
import ExprTyping.Ty.Basic

/-!
# Signatures

A signature gives an operator a result on exactly the operand types it lists. In a registry the
first signature that fits decides.
-/

namespace ExprTyping

/-- The type of an operator on some operand types. -/
structure Signature (β : Type) where
  /-- The operator. -/
  op : Op
  /-- The operand types. -/
  args : List (Option (Ty β))
  /-- The type of the result. -/
  result : Option (Ty β)
  deriving DecidableEq, Repr

/-- Signatures in order. -/
abbrev Registry (β : Type) := List (Signature β)

namespace Registry

variable {β : Type} [Bound β]

/-- The result of the first signature that fits. -/
def lookup (reg : Registry β) (op : Op) (args : List (Option (Ty β))) :
    Option (Option (Ty β)) :=
  (reg.find? fun sig => sig.op == op && Ty.sameAll sig.args args).map Signature.result

end Registry

/-- The text of a signature. -/
def Signature.render (sig : Signature Binary64) : Text :=
  sig.op.name ++ Ty.renderAll sig.args ++ " -> " ++ Ty.renderResult sig.result

end ExprTyping
