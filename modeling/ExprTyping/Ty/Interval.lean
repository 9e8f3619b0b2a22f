import ExprTyping.Ty.Error

/-!
# Interval arithmetic

Intervals of non-negative numbers with ascending bounds. Sums add the bounds; differences and
quotients pair each bound with the opposite one. A result that is no such interval is refused, and
so is a quotient that may meet zero over zero or infinity over infinity.
-/

namespace ExprTyping.Interval

variable {β : Type} [Bound β]

/-- Whether two numbers can bound an interval: both are numbers, the lower one is not negative,
and the upper one is strictly above it. -/
def validBounds (low high : β) : Bool :=
  !(Bound.isNaN low || Bound.isNaN high || Bound.lt low Bound.zero || Bound.le high low)

/-- The interval with these bounds and flags, if the bounds are valid. -/
def make (low high : β) (includesLow includesHigh : Bool) :
    Except (TypeError β) (Interval β) :=
  if validBounds low high then .ok ⟨low, high, includesLow, includesHigh⟩
  else .error ⟨.invalidInterval, "", [], [], low, high⟩

/-- The interval that contains both its bounds. -/
def closed (low high : β) : Except (TypeError β) (Interval β) :=
  make low high true true

/-- Membership. -/
def contains (iv : Interval β) (x : β) : Bool :=
  if Bound.isNaN x || Bound.lt x iv.low || Bound.lt iv.high x then false
  else if Bound.eq x iv.low then iv.includesLow
  else if Bound.eq x iv.high then iv.includesHigh
  else true

/-- The result of an operation on two intervals, if its bounds are valid. -/
def derive (op : String) (a b : Interval β) (low high : β) (includesLow includesHigh : Bool) :
    Except (TypeError β) (Interval β) :=
  if validBounds low high then .ok ⟨low, high, includesLow, includesHigh⟩
  else .error ⟨.invalidInterval, op, [], [some (.interval a), some (.interval b)], low, high⟩

/-- The sum. A bound belongs to it if it does on both sides. -/
def add (a b : Interval β) : Except (TypeError β) (Interval β) :=
  derive "add" a b (Bound.add a.low b.low) (Bound.add a.high b.high)
    (a.includesLow && b.includesLow) (a.includesHigh && b.includesHigh)

/-- The difference. -/
def sub (a b : Interval β) : Except (TypeError β) (Interval β) :=
  derive "sub" a b (Bound.sub a.low b.high) (Bound.sub a.high b.low)
    (a.includesLow && b.includesHigh) (a.includesHigh && b.includesLow)

/-- The quotient. Zero over zero is looked for before infinity over infinity. -/
def div (a b : Interval β) : Except (TypeError β) (Interval β) :=
  let args := [some (.interval a), some (.interval b)]
  if a.contains Bound.zero && b.contains Bound.zero then
    .error (.onOperands .possibleZeroOverZero "truediv" args)
  else if a.contains Bound.infinity && b.contains Bound.infinity then
    .error (.onOperands .possibleInfOverInf "truediv" args)
  else
    derive "truediv" a b (Bound.extDiv a.low b.high) (Bound.extDiv a.high b.low)
      (a.includesLow && b.includesHigh) (a.includesHigh && b.includesLow)

end ExprTyping.Interval
