/-!
# Binary floating point with 64 bits

Exact arithmetic on the 64-bit binary format, rounded to nearest with ties to even. The finite
magnitudes of the format, in ascending order, are numbered 0, 1, 2, …, and infinity has the number
behind the largest of them. A number of the format is a sign and such an ordinal, or it is not a
number at all.

Every finite magnitude is a whole multiple of 2⁻¹⁰⁷⁴, so sums and quotients are computed exactly
in `Nat` and rounded once:

- `Binary64.units` is the magnitude with a given ordinal, in units of 2⁻¹⁰⁷⁴;
- `Binary64.nearest` is the ordinal of the magnitude nearest to a quotient;
- comparison of magnitudes is comparison of ordinals.
-/

namespace ExprTyping

namespace Binary64

/-- The ordinal of infinity: 2047 binades of 2⁵² magnitudes come before it. -/
def infinityOrd : Nat := 2047 * Nat.pow 2 52

end Binary64

/-- A floating point number: a sign and the ordinal of its magnitude, or not a number. -/
inductive Binary64 where
  /-- The result of an operation without a value. -/
  | nan
  /-- A signed magnitude, given by its ordinal. -/
  | num (neg : Bool) (ord : Fin (Binary64.infinityOrd + 1))
  deriving DecidableEq, Repr

namespace Binary64

/-- The number with a sign and an ordinal; ordinals above that of infinity give infinity. -/
def ofOrd (neg : Bool) (k : Nat) : Binary64 :=
  .num neg ⟨min k infinityOrd, by omega⟩

/-- Zero without a sign. -/
def zero : Binary64 := ofOrd false 0

/-- Positive infinity. -/
def infinity : Binary64 := ofOrd false infinityOrd

instance : Inhabited Binary64 := ⟨zero⟩

/-- Whether this is not a number. -/
def isNaN : Binary64 → Bool
  | .nan => true
  | .num _ _ => false

/-- Whether this is an infinity of either sign. -/
def isInfinite : Binary64 → Bool
  | .nan => false
  | .num _ k => k.val == infinityOrd

/-- The finite magnitude with ordinal `k`, in units of 2⁻¹⁰⁷⁴. Up to 2⁵³ the magnitudes are the
units themselves; each further run of 2⁵² magnitudes doubles the spacing. -/
def units (k : Nat) : Nat :=
  if k < Nat.pow 2 52 then k
  else (Nat.pow 2 52 + k % Nat.pow 2 52) * Nat.pow 2 (k / Nat.pow 2 52 - 1)

/-- The integer nearest to `num / den`; a half goes to the even neighbour. -/
def roundDiv (num den : Nat) : Nat :=
  let q := num / den
  let r := num % den
  if 2 * r < den then q
  else if den < 2 * r then q + 1
  else q + q % 2

/-- The ordinal of the magnitude nearest to `num / den` units, as if magnitudes went on above
the largest finite one. The quotient is first cut to 53 binary digits, and the ordinal counts on
from the first magnitude with that spacing. -/
def nearest (num den : Nat) : Nat :=
  let shift := (num / den).log2 - 52
  shift * Nat.pow 2 52 + roundDiv num (den * Nat.pow 2 shift)

/-- The number nearest to `num / den` units, with the given sign. -/
def ofQuotient (neg : Bool) (num den : Nat) : Binary64 :=
  ofOrd neg (nearest num den)

/-- The number of binary places behind the point that a unit takes. -/
def unitPlaces : Nat := 1074

/-- The number of units in one. -/
def unitsPerOne : Nat := Nat.pow 2 unitPlaces

/-- The number nearest to an integer. -/
def ofInt (i : Int) : Binary64 :=
  ofQuotient (decide (i < 0)) (i.natAbs * unitsPerOne) 1

/-- The number nearest to `digits * 10 ^ exponent`. -/
def ofDecimal (neg : Bool) (digits : Nat) (exponent : Int) : Binary64 :=
  match exponent with
  | .ofNat e => ofQuotient neg (digits * Nat.pow 10 e * unitsPerOne) 1
  | .negSucc e => ofQuotient neg (digits * unitsPerOne) (Nat.pow 10 (e + 1))

/-! ## Arithmetic -/

/-- Changes the sign, also that of zero. -/
def neg : Binary64 → Binary64
  | .nan => .nan
  | .num s k => .num (!s) k

/-- The signed value of a finite number in units of 2⁻¹⁰⁷⁴. -/
def signedUnits (s : Bool) (k : Nat) : Int :=
  if s then -(units k : Int) else units k

/-- The rounded sum. An exact zero is negative only if both terms are. -/
def add : Binary64 → Binary64 → Binary64
  | .num s k, .num t l =>
    if k.val = infinityOrd then
      if l.val = infinityOrd && s != t then .nan else .num s k
    else if l.val = infinityOrd then .num t l
    else
      let sum := signedUnits s k + signedUnits t l
      if sum = 0 then ofOrd (s && t) 0
      else ofQuotient (decide (sum < 0)) sum.natAbs 1
  | _, _ => .nan

/-- The rounded difference. -/
def sub (x y : Binary64) : Binary64 :=
  add x (neg y)

/-- The rounded quotient. A nonzero number over zero is infinite; zero over zero and infinity over
infinity have no value. -/
def div : Binary64 → Binary64 → Binary64
  | .num s k, .num t l =>
    let sign := s != t
    if k.val = infinityOrd then
      if l.val = infinityOrd then .nan else ofOrd sign infinityOrd
    else if l.val = infinityOrd then ofOrd sign 0
    else if l.val = 0 then
      if k.val = 0 then .nan else ofOrd sign infinityOrd
    else ofQuotient sign (units k * unitsPerOne) (units l)
  | _, _ => .nan

/-! ## Comparison -/

/-- The ordinal with its sign; the two zeros agree. -/
def signedOrd (s : Bool) (k : Nat) : Int :=
  if s then -(k : Int) else k

/-- Numerical equality: the two zeros are equal, and what is not a number equals nothing. -/
def eq : Binary64 → Binary64 → Bool
  | .num s k, .num t l => signedOrd s k == signedOrd t l
  | _, _ => false

/-- Numerically less. -/
def lt : Binary64 → Binary64 → Bool
  | .num s k, .num t l => decide (signedOrd s k < signedOrd t l)
  | _, _ => false

/-- Numerically less or equal. -/
def le : Binary64 → Binary64 → Bool
  | .num s k, .num t l => decide (signedOrd s k ≤ signedOrd t l)
  | _, _ => false

end Binary64

end ExprTyping
