import ExprTyping.Proofs.ScalarTyping
import ExprTyping.Proofs.Typing

/-!
# Typing scalars without a table

The scalar domain looks every call up in a generated table. Here the same typing is written down as
a recursion on the expression that applies the rule for scalar operands at each call and consults
nothing else. A call to which no rule applies has no matching signature, whatever its operator, the
number of its operands and their types are.

- `infer_eq_scalarTyping`: inference in the scalar domain is this recursion;
- `Expr.IsInteger`: integers under minus signs, and `scalarRule?_eq_int`: no other call has the
  type of integers;
- `infer_scalar_direct`: both together.
-/

namespace ExprTyping

mutual

/-- The typed expression by the rule for scalar operands, or the first failure. -/
def scalarTyping (env : Env Binary64) : Expr → Except (InferFault Binary64) (Typed Binary64)
  | .lit p l => .ok (.lit p l (if l.kind = .int then .int else .real))
  | .sym p name =>
    match env.get? name with
    | some ty => .ok (.sym p name ty)
    | none => .error ⟨.typing (.unbound name), p⟩
  | .call p op args => do
    let operands ← scalarTypings env args
    let types := operands.map Typed.ty
    match scalarRule? op types with
    | some ty => .ok (.call p op operands ty)
    | none => .error ⟨.typing (.noSignature op.name types), p⟩
  | .missing => .error ⟨.missingNode, .nowhere⟩

/-- The typed operands, or the first failure among them. -/
def scalarTypings (env : Env Binary64) :
    List Expr → Except (InferFault Binary64) (List (Typed Binary64))
  | [] => .ok []
  | e :: es => do
    let t ← scalarTyping env e
    let ts ← scalarTypings env es
    return t :: ts

end

variable {env : Env Binary64}

mutual

/-- Inference in the scalar domain applies the rule at every call. -/
theorem infer_eq_scalarTyping : ∀ e : Expr, infer env .scalar e = scalarTyping env e
  | .lit p l => by
    rw [infer, scalarTyping]
    by_cases hkind : l.kind = .int
    · rw [if_pos hkind, Literal.ty_of_int hkind]
    · rw [if_neg hkind, Literal.ty_of_ne_int hkind]
  | .sym p name => by
    rw [infer, scalarTyping]
    cases env.get? name <;> rfl
  | .call p op args => by
    rw [infer, scalarTyping, inferAll_eq_scalarTypings args]
    cases scalarTypings env args with
    | error f => rfl
    | ok operands =>
      -- What is left is one call: the table against the rule.
      simp only [bind, Except.bind, Domain.callType_scalar]
      cases scalarRule? op (operands.map Typed.ty) <;> rfl
  | .missing => by rw [infer, scalarTyping]

theorem inferAll_eq_scalarTypings : ∀ es : List Expr,
    inferAll env .scalar es = scalarTypings env es
  | [] => by rw [inferAll, scalarTypings]
  | e :: es => by
    rw [inferAll, scalarTypings, infer_eq_scalarTyping e, inferAll_eq_scalarTypings es]
    cases scalarTyping env e with
    | error f => rfl
    | ok t => cases scalarTypings env es <;> rfl

end

/-! ## The type of integers -/

/-- Whether an expression is an integer literal or a symbol declared as an integer, under any number
of minus signs. -/
inductive Expr.IsInteger (env : Env Binary64) : Expr → Prop
  | lit (p : Pos) {l : Literal} : l.kind = .int → IsInteger env (.lit p l)
  | sym (p : Pos) {name : Text} : env.get? name = some (some .int) → IsInteger env (.sym p name)
  | minus (p : Pos) {e : Expr} : IsInteger env e → IsInteger env (.call p .neg [e])

/-- Arithmetic is real, and comparisons and connectives are boolean. Only a minus sign has the type of
integers, and only in front of an integer. -/
theorem scalarRule?_eq_int {op : Op} {args : List (Option (Ty Binary64))} :
    scalarRule? op args = some .int ↔ op = .neg ∧ args = [some .int] := by
  constructor
  · intro h
    unfold scalarRule? at h
    split at h
    · split at h
      · obtain ⟨-, rfl⟩ := Option.ite_none_right_eq_some.1 h
        exact ⟨rfl, rfl⟩
      · obtain ⟨-, hbool⟩ := Option.ite_none_right_eq_some.1 h
        exact absurd hbool (by decide)
      · cases h
    · -- No operator makes an integer of two operands.
      have hnumbers : op.onNumbers? ≠ some .int := by
        cases op <;> exact nofun
      have hbooleans : op.onBooleans? ≠ some .int := by
        cases op <;> exact nofun
      split at h
      · exact absurd h hnumbers
      · exact absurd (Option.ite_none_right_eq_some.1 h).2 hbooleans
    · cases h
  · rintro ⟨rfl, rfl⟩
    rfl

theorem Domain.callType_scalar_eq_ok {op : Op} {args : List (Option (Ty Binary64))}
    {ty : Ty Binary64} : Domain.scalar.callType op args = .ok ty ↔ scalarRule? op args = some ty := by
  rw [callType_scalar]
  cases scalarRule? op args <;> simp

/-- A call with the type of integers is a minus sign in front of an integer. -/
theorem hasType_call_int {p : Pos} {op : Op} {args : List Expr} :
    HasType env .scalar (.call p op args) (some .int) ↔
      op = .neg ∧ ∃ e, args = [e] ∧ HasType env .scalar e (some .int) := by
  constructor
  · intro h
    cases h with
    | call _ hknown hargs hresolve =>
      have hcall := Domain.callType_eq_ok.2 ⟨hknown, hresolve⟩
      obtain ⟨rfl, rfl⟩ := scalarRule?_eq_int.1 (Domain.callType_scalar_eq_ok.1 hcall)
      cases hargs with
      | cons he hnone =>
        cases hnone
        exact ⟨rfl, _, rfl, he⟩
  · rintro ⟨rfl, e, rfl, he⟩
    have hrule : scalarRule? .neg [some .int] = some .int := scalarRule?_eq_int.2 ⟨rfl, rfl⟩
    obtain ⟨hknown, hresolve⟩ := Domain.callType_eq_ok.1 (Domain.callType_scalar_eq_ok.2 hrule)
    exact .call p hknown (.cons he .nil) hresolve

theorem isInteger_of_hasType : ∀ e : Expr, HasType env .scalar e (some .int) → e.IsInteger env
  | .lit p l, h => by
    generalize hty : some Ty.int = ty at h
    cases h with
    | int _ hkind => exact .lit p hkind
    | real _ hkind => exact absurd hty (by decide)
  | .sym p name, h => by
    cases h with
    | sym _ hget => exact .sym p hget
  | .call p op [], h => by
    obtain ⟨-, e, hargs, -⟩ := hasType_call_int.1 h
    cases hargs
  | .call p op [e], h => by
    obtain ⟨rfl, _, hargs, he⟩ := hasType_call_int.1 h
    cases hargs
    exact .minus p (isInteger_of_hasType e he)
  | .call p op (_ :: _ :: _), h => by
    obtain ⟨-, e, hargs, -⟩ := hasType_call_int.1 h
    cases hargs
  | .missing, h => by cases h

theorem Expr.IsInteger.hasType {e : Expr} (h : e.IsInteger env) :
    HasType env .scalar e (some .int) := by
  induction h with
  | lit p hkind => exact .int p hkind
  | sym p hget => exact .sym p hget
  | minus p _ ih => exact hasType_call_int.2 ⟨rfl, _, rfl, ih⟩

/-- Inference in the scalar domain is the direct typing by the scalar rule, for every tree and under
any declarations: it makes the same typed tree, and it fails at the same node for the same reason.
So an expression has the type of integers exactly if, under any number of minus signs, it is an
integer literal or a symbol declared as an integer. -/
theorem infer_scalar_direct (env : Env Binary64) (e : Expr) :
    infer env .scalar e = scalarTyping env e ∧
      ((∃ t, infer env .scalar e = .ok t ∧ t.ty = some .int) ↔ e.IsInteger env) := by
  refine ⟨infer_eq_scalarTyping e, ?_, fun h => infer_complete e _ h.hasType⟩
  rintro ⟨t, ht, hty⟩
  have hsound := infer_sound e t ht
  rw [hty] at hsound
  exact isInteger_of_hasType e hsound

end ExprTyping
