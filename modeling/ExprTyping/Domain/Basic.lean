import ExprTyping.Domain.Signature
import ExprTyping.Ty.Interval
import ExprTyping.Ty.Shape

/-!
# Domains

A domain is the algebra of types that inference uses: a name, and a function that gives the result
type of an operator on operands that are already typed. Any such function will do. Three kinds are
defined here: a table looks calls up in a registry, and the matrix and the interval domain compute
with shapes and intervals.
-/

namespace ExprTyping

/-- An algebra of types. -/
structure Domain (β : Type) where
  /-- The name. -/
  name : Text
  /-- The result type of an operator on typed operands. A domain may know a call and still give it
  no type. -/
  resolve : Op → List (Option (Ty β)) → Except (TypeError β) (Option (Ty β))

namespace Domain

section Scalar

variable {β : Type}

/-- The signatures of an operator on every pair of numeric operands. -/
def numericPairs (op : Op) (result : Ty β) : Registry β :=
  [⟨op, [some .int, some .int], some result⟩, ⟨op, [some .int, some .real], some result⟩,
    ⟨op, [some .real, some .int], some result⟩, ⟨op, [some .real, some .real], some result⟩]

/-- Arithmetic is real, comparisons are boolean, the connectives work on booleans, and a minus
sign keeps the type of its operand. -/
def scalarRegistry : Registry β :=
  [Op.add, .sub, .mul, .truediv].flatMap (numericPairs · .real) ++
    [Op.eq, .ne, .lt, .le, .gt, .ge].flatMap (numericPairs · .bool) ++
    [⟨.eq, [some .bool, some .bool], some .bool⟩, ⟨.ne, [some .bool, some .bool], some .bool⟩,
      ⟨.and, [some .bool, some .bool], some .bool⟩, ⟨.or, [some .bool, some .bool], some .bool⟩,
      ⟨.not, [some .bool], some .bool⟩, ⟨.neg, [some .int], some .int⟩,
      ⟨.neg, [some .real], some .real⟩]

end Scalar

variable {β : Type} [Bound β]

/-- The result type of an operator by a registry. -/
def resolveTable (registry : Registry β) (op : Op) (args : List (Option (Ty β))) :
    Except (TypeError β) (Option (Ty β)) :=
  match registry.lookup op args with
  | some result => .ok result
  | none => .error (.noSignature op.name args)

/-- The result type of an operator on matrices. -/
def resolveMatrix (op : Op) (args : List (Option (Ty β))) :
    Except (TypeError β) (Option (Ty β)) :=
  match op, args with
  | .add, [some (.matrix a), some (.matrix b)] => (a.add b).map fun s => some (.matrix s)
  | .sub, [some (.matrix a), some (.matrix b)] => (a.sub b).map fun s => some (.matrix s)
  | .mul, [some (.matrix a), some (.matrix b)] => (a.mul b).map fun s => some (.matrix s)
  | _, _ => .error (.noSignature op.name args)

/-- The result type of an operator on intervals. -/
def resolveInterval (op : Op) (args : List (Option (Ty β))) :
    Except (TypeError β) (Option (Ty β)) :=
  match op, args with
  | .add, [some (.interval a), some (.interval b)] => (a.add b).map fun i => some (.interval i)
  | .sub, [some (.interval a), some (.interval b)] => (a.sub b).map fun i => some (.interval i)
  | .truediv, [some (.interval a), some (.interval b)] =>
    (a.div b).map fun i => some (.interval i)
  | _, _ => .error (.noSignature op.name args)

/-- A named registry. -/
def table (name : Text) (registry : Registry β) : Domain β := ⟨name, resolveTable registry⟩

/-- Matrix shapes. -/
def matrix : Domain β := ⟨"matrix", resolveMatrix⟩

/-- Intervals. -/
def interval : Domain β := ⟨"interval", resolveInterval⟩

/-- Integers, reals and booleans. -/
def scalar : Domain β := .table "scalar" scalarRegistry

/-- The built-in domains, in the order of their names. -/
def builtin : List (Domain β) := [.interval, .matrix, .scalar]

/-- The names of the built-in domains. -/
def builtinNames : List Text := (builtin (β := β)).map name

/-- The built-in domain with a name. -/
def ofName? (n : Text) : Option (Domain β) :=
  builtin.find? fun d => d.name == n

end Domain

end ExprTyping
