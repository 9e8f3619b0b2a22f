import ExprTyping.Bindings
import ExprTyping.Domain.Basic
import ExprTyping.Expr.Typed

/-!
# Type inference

Literals are integers or reals, symbols have the types of the environment, and a call has the type
that the domain gives its operator on the types of its arguments. Arguments come before their
call and are taken from left to right, so the error is that of the first node in post-order that
has no type.
-/

namespace ExprTyping

/-- The declared symbols with their types. -/
abbrev Env (β : Type) := Bindings (Option (Ty β))

/-- Why inference stops. -/
inductive InferError (β : Type) where
  /-- An empty place in the tree. -/
  | missingNode
  /-- A node has no type. -/
  | typing (error : TypeError β)
  deriving DecidableEq, Repr

/-- Why inference stops, and at which node. -/
structure InferFault (β : Type) where
  /-- What is wrong. -/
  error : InferError β
  /-- The position of the node. -/
  pos : Pos
  deriving DecidableEq, Repr

variable {β : Type}

/-- The type of a literal. -/
def Literal.ty (l : Literal) : Ty β :=
  match l.kind with
  | .int => .int
  | _ => .real

variable [Bound β]

/-- The type of a call from the types of its arguments: the operator has to be a known one, and
the domain has to give it a type. -/
def Domain.callType (d : Domain β) (op : Op) (args : List (Option (Ty β))) :
    Except (TypeError β) (Ty β) :=
  if op.isKnown then
    match d.resolve op args with
    | .ok (some t) => .ok t
    | .ok none => .error (.noSignature op.name args)
    | .error e => .error e
  else .error (.noSignature op.name args)

mutual

/-- The typed expression, or the first failure. -/
def infer (env : Env β) (d : Domain β) : Expr → Except (InferFault β) (Typed β)
  | .lit p l => .ok (.lit p l l.ty)
  | .sym p name =>
    match env.get? name with
    | some t => .ok (.sym p name t)
    | none => .error ⟨.typing (.unbound name), p⟩
  | .call p op args =>
    match inferAll env d args with
    | .error e => .error e
    | .ok typed =>
      match d.callType op (typed.map Typed.ty) with
      | .ok t => .ok (.call p op typed t)
      | .error e => .error ⟨.typing e, p⟩
  | .missing => .error ⟨.missingNode, .nowhere⟩

/-- The typed arguments, or the first failure. -/
def inferAll (env : Env β) (d : Domain β) : List Expr → Except (InferFault β) (List (Typed β))
  | [] => .ok []
  | e :: es =>
    match infer env d e with
    | .error f => .error f
    | .ok t =>
      match inferAll env d es with
      | .error f => .error f
      | .ok ts => .ok (t :: ts)

end

end ExprTyping
