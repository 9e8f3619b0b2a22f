import ExprTyping.Binary64.Basic
import ExprTyping.Text.Basic

/-!
# Decimal text of floating point numbers

Numerals are read by rounding their exact decimal value once. A number is written with the fewest
decimal digits that read back as the same number, and of those with the digits nearest to it.

- `Numeral.value` reads a numeral;
- `Binary64.shortest` finds the digits;
- `Binary64.render` lays them out: with an exponent below 10⁻⁴ and from 10⁶ on, plainly in between.
-/

namespace ExprTyping

/-- A decimal numeral: digits, perhaps a fraction, perhaps an exponent. -/
structure Numeral where
  /-- The digits in front of the point. -/
  whole : List Char
  /-- The digits behind the point. -/
  fraction : List Char
  /-- Whether the exponent has a minus sign. -/
  exponentNeg : Bool
  /-- The digits of the exponent. -/
  exponent : List Char
  deriving DecidableEq, Repr

namespace Numeral

/-- The value of a decimal digit. -/
def digitValue (c : Char) : Nat :=
  c.toNat - 0x30

/-- The number that a list of decimal digits denotes. -/
def natOfDigits (ds : List Char) : Nat :=
  ds.foldl (fun n c => 10 * n + digitValue c) 0

/-- The size of an exponent. Digits stop counting once the exponent has reached ten thousand: far
beyond the range of the format, it only has to stay large. -/
def exponentOfDigits (ds : List Char) : Nat :=
  ds.foldl (fun n c => if n < 10000 then 10 * n + digitValue c else n) 0

/-- The number nearest to the numeral; a numeral beyond the format reads as infinity. -/
def value (n : Numeral) : Binary64 :=
  let size : Int := exponentOfDigits n.exponent
  let exponent := (if n.exponentNeg then -size else size) - n.fraction.length
  Binary64.ofDecimal false (natOfDigits (n.whole ++ n.fraction)) exponent

end Numeral

/-- A decimal fraction `digits * 10 ^ exponent`. -/
structure Decimal where
  /-- The digits as a whole number. -/
  digits : Nat
  /-- The power of ten that scales them. -/
  exponent : Int
  deriving DecidableEq, Repr

namespace Binary64

/-- The number of decimal digits of `n`, none for zero. -/
def digitCount (n : Nat) : Nat :=
  if n = 0 then 0 else (Nat.toDigits 10 n).length

/-- The exponent of the leading decimal digit of `num / den`, for positive `num` and `den`. -/
def leadingExponent (num den : Nat) : Int :=
  if den ≤ num then (digitCount (num / den) : Int) - 1
  else -(digitCount ((den + num - 1) / num - 1) : Int)

/-- The multiples of `10 ^ exponent` next to `num / den`: the largest one not above it, and twice
the remainder against the spacing, from which the nearer neighbour is read off. -/
def gridBelow (num den : Nat) (exponent : Int) : Nat × Ordering :=
  match exponent with
  | .ofNat e =>
    let step := den * Nat.pow 10 e
    (num / step, compare (2 * (num % step)) step)
  | .negSucc e =>
    let scaled := num * Nat.pow 10 (e + 1)
    (scaled / den, compare (2 * (scaled % den)) den)

/-- The decimal with `n` digits that reads back as the magnitude with ordinal `k`, if there is one;
of two, the nearer one, and on a tie the one with the even last digit. -/
def withDigits? (k n : Nat) : Option Decimal :=
  let num := units k
  let den := unitsPerOne
  let exponent := leadingExponent num den - n + 1
  let (below, side) := gridBelow num den exponent
  let readsBack (d : Nat) := ofDecimal false d exponent == ofOrd false k
  match readsBack below, readsBack (below + 1) with
  | true, false => some ⟨below, exponent⟩
  | false, true => some ⟨below + 1, exponent⟩
  | true, true =>
    match side with
    | .lt => some ⟨below, exponent⟩
    | .gt => some ⟨below + 1, exponent⟩
    | .eq => some ⟨below + below % 2, exponent⟩
  | false, false => none

/-- The exact decimal value of the magnitude with ordinal `k`. -/
def exactDecimal (k : Nat) : Decimal :=
  ⟨units k * Nat.pow 5 unitPlaces, -unitPlaces⟩

/-- The shortest decimal that reads back as the magnitude with ordinal `k`. Seventeen digits are
enough for every magnitude; the exact value stands behind them. -/
def shortest (k : Nat) : Decimal :=
  ((List.range 17).findSome? fun n => withDigits? k (n + 1)).getD (exactDecimal k)

/-! ## Layout -/

/-- Drops the zeros at the end. -/
def dropTrailingZeros (ds : List Char) : List Char :=
  (ds.reverse.dropWhile (· == '0')).reverse

/-- An exponent with its sign and at least two digits. -/
def exponentChars (e : Int) : List Char :=
  let ds := Nat.toDigits 10 e.natAbs
  (if e < 0 then '-' else '+') :: (if ds.length < 2 then '0' :: ds else ds)

/-- Lays out digits `d₁d₂d₃…` whose first digit counts `10 ^ e`. -/
def layOut (ds : List Char) (e : Int) : List Char :=
  if e < -4 || e ≥ 6 then
    match ds with
    | [] => []
    | [d] => d :: 'e' :: exponentChars e
    | d :: rest => d :: '.' :: rest ++ 'e' :: exponentChars e
  else if e < 0 then
    '0' :: '.' :: List.replicate (e.natAbs - 1) '0' ++ ds
  else
    let whole := e.natAbs + 1
    if ds.length ≤ whole then ds ++ List.replicate (whole - ds.length) '0'
    else ds.take whole ++ '.' :: ds.drop whole

/-- The text of the finite magnitude with ordinal `k`. -/
def magnitudeChars (k : Nat) : List Char :=
  if k = 0 then ['0']
  else
    let d := shortest k
    let ds := Nat.toDigits 10 d.digits
    layOut (dropTrailingZeros ds) (d.exponent + ds.length - 1)

/-- The characters of a number. -/
def toChars : Binary64 → List Char
  | .nan => ['N', 'a', 'N']
  | .num s k =>
    if k.val = infinityOrd then (if s then '-' else '+') :: ['I', 'n', 'f']
    else if s then '-' :: magnitudeChars k else magnitudeChars k

/-- The text of a number. -/
def render (x : Binary64) : Text :=
  Text.ofChars x.toChars

end Binary64

end ExprTyping
