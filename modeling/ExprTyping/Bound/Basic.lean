import ExprTyping.Binary64.Basic

/-!
# Bounds of intervals

What the interval rules need of the numbers they compute with. The rules are written once over
this class: with `Binary64` they are what the checker runs, and with exact arithmetic they can be
compared with the values that expressions take.
-/

namespace ExprTyping

/-- Numbers that can bound an interval. -/
class Bound (β : Type) where
  /-- Zero. -/
  zero : β
  /-- Positive infinity. -/
  infinity : β
  /-- Sum. -/
  add : β → β → β
  /-- Difference. -/
  sub : β → β → β
  /-- Quotient. -/
  div : β → β → β
  /-- Numerically less. -/
  lt : β → β → Bool
  /-- Numerically less or equal. -/
  le : β → β → Bool
  /-- Numerically equal. -/
  eq : β → β → Bool
  /-- Whether this is the result of an operation without a value. -/
  isNaN : β → Bool

namespace Bound

variable {β : Type} [Bound β]

/-- Division where everything over zero is infinite. -/
def extDiv (x y : β) : β :=
  if eq y zero then infinity else div x y

end Bound

instance : Bound Binary64 where
  zero := Binary64.zero
  infinity := Binary64.infinity
  add := Binary64.add
  sub := Binary64.sub
  div := Binary64.div
  lt := Binary64.lt
  le := Binary64.le
  eq := Binary64.eq
  isNaN := Binary64.isNaN

end ExprTyping
