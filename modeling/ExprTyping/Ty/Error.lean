import ExprTyping.Text.Quoted
import ExprTyping.Ty.Basic

/-!
# Why something has no type

A typing error names its reason and the parts it is about: the operator with its operand types,
the symbol, or the bounds. Parts that the reason is not about are left at their defaults.
-/

namespace ExprTyping

/-- Why something has no type. -/
inductive Reason where
  /-- A symbol is not declared. -/
  | unboundSymbol
  /-- No rule gives the operator a type on these operands. -/
  | noMatchingSignature
  /-- The shapes of two matrices do not fit. -/
  | shapeMismatch
  /-- A division may meet zero over zero. -/
  | possibleZeroOverZero
  /-- A division may meet infinity over infinity. -/
  | possibleInfOverInf
  /-- The bounds are negative, not ascending or not numbers. -/
  | invalidInterval
  /-- A number that stands for no reason. -/
  | unknown (code : Int) (outside : ¬(0 ≤ code ∧ code < 6))
  deriving DecidableEq, Repr

namespace Reason

/-- All reasons, in the order of their numbers. -/
def all : List Reason :=
  [.unboundSymbol, .noMatchingSignature, .shapeMismatch, .possibleZeroOverZero,
    .possibleInfOverInf, .invalidInterval]

/-- The reason with a number. -/
def ofCode (code : Int) : Reason :=
  if h : 0 ≤ code ∧ code < 6 then
    all.get ⟨code.toNat, show code.toNat < 6 by omega⟩
  else .unknown code h

/-- The name of a reason. -/
def name : Reason → Text
  | .unboundSymbol => "UnboundSymbol"
  | .noMatchingSignature => "NoMatchingSignature"
  | .shapeMismatch => "ShapeMismatch"
  | .possibleZeroOverZero => "PossibleZeroOverZero"
  | .possibleInfOverInf => "PossibleInfOverInf"
  | .invalidInterval => "InvalidInterval"
  | .unknown code _ => "Reason(" ++ Text.ofInt code ++ ")"

end Reason

/-- A typing error. -/
structure TypeError (β : Type) where
  /-- Why there is no type. -/
  reason : Reason
  /-- The name of the operator; empty if none is involved. -/
  op : String
  /-- The symbol that is not declared. -/
  symbol : Text
  /-- The operand types. -/
  args : List (Option (Ty β))
  /-- The lower bound that was refused. -/
  low : β
  /-- The upper bound that was refused. -/
  high : β
  deriving DecidableEq, Repr

namespace TypeError

variable {β : Type} [Bound β]

/-- A symbol is not declared. -/
def unbound (name : Text) : TypeError β :=
  ⟨.unboundSymbol, "", name, [], Bound.zero, Bound.zero⟩

/-- An operator has no type on some operands, for a reason without bounds. -/
def onOperands (reason : Reason) (op : String) (args : List (Option (Ty β))) : TypeError β :=
  ⟨reason, op, [], args, Bound.zero, Bound.zero⟩

/-- No rule applies. -/
def noSignature (op : String) (args : List (Option (Ty β))) : TypeError β :=
  onOperands .noMatchingSignature op args

end TypeError

/-- The message of a typing error. -/
def TypeError.message (e : TypeError Binary64) : Text :=
  let applied := (e.op : Text) ++ Ty.renderAll e.args
  let bounds := "invalid interval (" ++ e.low.render ++ ", " ++ e.high.render ++ ")"
  match e.reason with
  | .unboundSymbol => "unbound symbol " ++ Text.quote e.symbol
  | .noMatchingSignature => "no signature matches " ++ applied
  | .shapeMismatch => "shape mismatch in " ++ applied
  | .possibleZeroOverZero => applied ++ " may evaluate 0/0"
  | .possibleInfOverInf => applied ++ " may evaluate inf/inf"
  | .invalidInterval => if e.op = "" then bounds else applied ++ " yields " ++ bounds
  | .unknown code outside => (Reason.unknown code outside).name

end ExprTyping
