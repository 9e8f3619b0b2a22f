import ExprTyping.Bound.Basic

/-!
# Exact bounds

Rational numbers with both infinities, and a value for what has none. Nothing is rounded, so
facts about intervals over these bounds are facts about the rules and not about a number format.
-/

namespace ExprTyping

/-- An exact bound. -/
inductive Exact where
  /-- A rational number. -/
  | fin (q : Rat)
  /-- Positive infinity. -/
  | posInf
  /-- Negative infinity. -/
  | negInf
  /-- The result of an operation without a value. -/
  | undefined
  deriving DecidableEq

namespace Exact

/-- The opposite. -/
def neg : Exact → Exact
  | .fin q => .fin (-q)
  | .posInf => .negInf
  | .negInf => .posInf
  | .undefined => .undefined

/-- The sum; opposite infinities have none. -/
def add : Exact → Exact → Exact
  | .fin p, .fin q => .fin (p + q)
  | .fin _, y => y
  | x, .fin _ => x
  | .posInf, .posInf => .posInf
  | .negInf, .negInf => .negInf
  | _, _ => .undefined

/-- The difference. -/
def sub (x y : Exact) : Exact :=
  add x (neg y)

/-- An infinity with the sign of a nonzero number. -/
def infinityOf (q : Rat) : Exact :=
  if 0 < q then .posInf else .negInf

/-- The quotient; zero over zero and infinity over infinity have none. -/
def div : Exact → Exact → Exact
  | .fin p, .fin q =>
    if q = 0 then (if p = 0 then .undefined else infinityOf p) else .fin (p / q)
  | .fin _, .posInf => .fin 0
  | .fin _, .negInf => .fin 0
  | .posInf, .fin q => if q < 0 then .negInf else .posInf
  | .negInf, .fin q => if q < 0 then .posInf else .negInf
  | _, _ => .undefined

/-- Numerically less or equal. -/
def le : Exact → Exact → Bool
  | .fin p, .fin q => decide (p ≤ q)
  | .negInf, .fin _ => true
  | .negInf, .negInf => true
  | .negInf, .posInf => true
  | .fin _, .posInf => true
  | .posInf, .posInf => true
  | _, _ => false

/-- Numerically less. -/
def lt : Exact → Exact → Bool
  | .fin p, .fin q => decide (p < q)
  | .negInf, .fin _ => true
  | .negInf, .posInf => true
  | .fin _, .posInf => true
  | _, _ => false

/-- Whether this is the result of an operation without a value. -/
def isUndefined : Exact → Bool
  | .undefined => true
  | _ => false

/-- Numerically equal; what has no value equals nothing. -/
def eq (x y : Exact) : Bool :=
  decide (x = y) && !x.isUndefined

end Exact

instance : Bound Exact where
  zero := Exact.fin 0
  infinity := Exact.posInf
  add := Exact.add
  sub := Exact.sub
  div := Exact.div
  lt := Exact.lt
  le := Exact.le
  eq := Exact.eq
  isNaN := Exact.isUndefined

end ExprTyping
