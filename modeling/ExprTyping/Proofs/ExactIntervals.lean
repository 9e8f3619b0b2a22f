import Mathlib.Algebra.Order.Field.Basic
import Mathlib.Algebra.Order.Ring.Rat
import Mathlib.Tactic.Linarith
import ExprTyping.Bound.Exact
import ExprTyping.Domain.Basic

/-!
# Interval arithmetic on exact bounds

Membership in an interval has two sides: a value lies above the lower bound and below the upper
one, or on a bound that is included. Every operation pairs each bound of one operand with a bound
of the other, and it is sound side by side.

The flags are where it may fail. A paired bound is included if both its parts are, but some values
absorb what they are combined with: infinity in a sum, and zero and infinity in a quotient. An
absorbing value that is a member attains the paired bound alone, whatever the flag of the other
part is. `KeepsAttained` says that this never meets an excluded part.

- `Interval.contains_iff`: the two sides of membership;
- `Interval.contains_sum`, `contains_difference` and `contains_quotient`: the paired bounds contain
  every result, if attained bounds are kept;
- `Interval.sound_iff_keepsAttained`: and only then.
-/

namespace ExprTyping

/-- Why an expression has no value. -/
inductive NoValue where
  | zeroOverZero
  | infinityOverInfinity
  | infinityMinusInfinity
  /-- A node that is no symbol, sum, difference or quotient. -/
  | notArithmetic
  deriving DecidableEq, Repr

namespace Exact

/-- The value of an operator on two values, unless it is one of the indeterminate forms. -/
def apply (op : Op) (x y : Exact) : Except NoValue Exact :=
  match op with
  | .add => .ok (Bound.add x y)
  | .sub =>
    if x = .posInf ∧ y = .posInf then .error .infinityMinusInfinity else .ok (Bound.sub x y)
  | .truediv =>
    if x = .fin 0 ∧ y = .fin 0 then .error .zeroOverZero
    else if x = .posInf ∧ y = .posInf then .error .infinityOverInfinity
    else .ok (Bound.extDiv x y)
  | _ => .error .notArithmetic

/-- Whether `x` is infinity or a finite number that is not negative. -/
def NonNeg (x : Exact) : Prop :=
  x = .posInf ∨ ∃ q, x = .fin q ∧ 0 ≤ q

/-- Whether `x` is infinity or a finite number above zero. -/
def Positive (x : Exact) : Prop :=
  x = .posInf ∨ ∃ q, x = .fin q ∧ 0 < q

/-- Whether `x` lies above a lower bound, or on it if it is included. -/
def Above (low : Exact) (included : Bool) (x : Exact) : Prop :=
  low.lt x ∨ low = x ∧ included

/-- Whether `x` lies below an upper bound, or on it if it is included. -/
def Below (high : Exact) (included : Bool) (x : Exact) : Prop :=
  x.lt high ∨ x = high ∧ included

theorem above_fin_fin {l q : Rat} {i : Bool} : Above (.fin l) i (.fin q) ↔ l < q ∨ l = q ∧ i := by
  simp [Above, lt]

theorem above_fin_posInf {l : Rat} {i : Bool} : Above (.fin l) i .posInf := by
  simp [Above, lt]

theorem below_fin_fin {h q : Rat} {i : Bool} : Below (.fin h) i (.fin q) ↔ q < h ∨ q = h ∧ i := by
  simp [Below, lt]

theorem below_posInf_fin {q : Rat} {i : Bool} : Below .posInf i (.fin q) := by
  simp [Below, lt]

theorem below_posInf_posInf {i : Bool} : Below .posInf i .posInf ↔ i := by
  simp [Below, lt]

theorem not_below_fin_posInf {h : Rat} {i : Bool} : ¬ Below (.fin h) i .posInf := by
  simp [Below, lt]

/-- Above a finite bound there are finite numbers and infinity. -/
theorem Above.cases {l : Rat} {i : Bool} {x : Exact} (h : Above (.fin l) i x) :
    x = .posInf ∨ ∃ q, x = .fin q ∧ l ≤ q := by
  cases x with
  | fin q =>
    rw [above_fin_fin] at h
    exact .inr ⟨q, rfl, h.elim le_of_lt fun h => h.1.le⟩
  | posInf => exact .inl rfl
  | negInf => simp [Above, lt] at h
  | undefined => simp [Above, lt] at h

/-- Below an upper bound, infinity is met only if the bound is infinite and included. -/
theorem Below.posInf {high : Exact} {i : Bool} (h : Below high i .posInf) :
    high = .posInf ∧ i := by
  rcases h with h | ⟨rfl, hi⟩
  · cases high <;> simp [lt] at h
  · exact ⟨rfl, hi⟩

@[simp] theorem fin_sub_fin (p q : Rat) : (Exact.fin p).sub (.fin q) = .fin (p - q) := by
  rw [sub, neg, add, ← sub_eq_add_neg]

@[simp] theorem posInf_sub_fin (q : Rat) : Exact.posInf.sub (.fin q) = .posInf := rfl

@[simp] theorem extDiv_zero (x : Exact) : Bound.extDiv x (.fin 0) = .posInf := rfl

theorem extDiv_fin {q : Rat} (x : Exact) (h : q ≠ 0) :
    Bound.extDiv x (.fin q) = x.div (.fin q) := by
  have heq : Exact.eq (.fin q) (.fin 0) = false := by simp [Exact.eq, h]
  change (if Exact.eq (.fin q) (.fin 0) then _ else _) = _
  rw [heq]
  rfl

theorem extDiv_fin_fin {p q : Rat} (h : q ≠ 0) :
    Bound.extDiv (.fin p : Exact) (.fin q) = .fin (p / q) := by
  rw [extDiv_fin _ h, div, if_neg h]

theorem extDiv_posInf_fin {q : Rat} (h : 0 ≤ q) :
    Bound.extDiv (.posInf : Exact) (.fin q) = .posInf := by
  rcases h.eq_or_lt with rfl | h
  · rfl
  · rw [extDiv_fin _ h.ne', div, if_neg h.le.not_gt]

@[simp] theorem extDiv_fin_posInf (p : Rat) : Bound.extDiv (.fin p : Exact) .posInf = .fin 0 := rfl

/-! ## One side of an operation

The bounds of a result come in pairs, and so do these lemmas: what lies on the right side of both
parts gives a result on the right side of their combination. A hypothesis such as `x = .posInf → j`
asks for the flag of the other part where `x` absorbs it. -/

section Sides

variable {l m h k p q : Rat} {i j : Bool} {x y high : Exact}

theorem above_add (hx : Above (.fin l) i x) (hy : Above (.fin m) j y) :
    Above (.fin (l + m)) (i && j) (x.add y) := by
  rcases hx.cases with rfl | ⟨p, rfl, hp⟩ <;> rcases hy.cases with rfl | ⟨q, rfl, hq⟩
  · exact above_fin_posInf
  · exact above_fin_posInf
  · exact above_fin_posInf
  · rw [above_fin_fin] at hx hy
    rw [add, above_fin_fin, Bool.and_eq_true]
    rcases hx with hx | ⟨rfl, hi⟩
    · exact .inl (add_lt_add_of_lt_of_le hx hq)
    · rcases hy with hy | ⟨rfl, hj⟩
      · exact .inl (add_lt_add_of_le_of_lt hp hy)
      · exact .inr ⟨rfl, hi, hj⟩

theorem below_add_fin (hx : Below (.fin h) i (.fin p)) (hy : Below (.fin k) j (.fin q)) :
    Below (.fin (h + k)) (i && j) (.fin (p + q)) := by
  rw [below_fin_fin] at hx hy
  rw [below_fin_fin, Bool.and_eq_true]
  rcases hx with hx | ⟨rfl, hi⟩
  · exact .inl (add_lt_add_of_lt_of_le hx (hy.elim le_of_lt fun hy => hy.1.le))
  · rcases hy with hy | ⟨rfl, hj⟩
    · exact .inl (add_lt_add_of_le_of_lt le_rfl hy)
    · exact .inr ⟨rfl, hi, hj⟩

/-- The upper side of a sum. An infinity in either part attains the bound alone. -/
theorem below_add {high' : Exact} (hhigh : high.Positive) (hhigh' : high'.Positive)
    (hx : Below high i x) (hy : Below high' j y) (hxv : x.NonNeg) (hyv : y.NonNeg)
    (hleft : x = .posInf → j) (hright : y = .posInf → i) :
    Below (high.add high') (i && j) (x.add y) := by
  rcases hxv with rfl | ⟨p, rfl, -⟩
  · obtain ⟨rfl, hi⟩ := hx.posInf
    have hbound : Exact.posInf.add high' = .posInf := by
      rcases hhigh' with rfl | ⟨k, rfl, -⟩ <;> rfl
    have hsum : Exact.posInf.add y = .posInf := by
      rcases hyv with rfl | ⟨q, rfl, -⟩ <;> rfl
    rw [hbound, hsum, below_posInf_posInf, hi, hleft rfl]
    rfl
  · rcases hyv with rfl | ⟨q, rfl, -⟩
    · obtain ⟨rfl, hj⟩ := hy.posInf
      have hbound : high.add .posInf = .posInf := by
        rcases hhigh with rfl | ⟨h, rfl, -⟩ <;> rfl
      have hsum : (Exact.fin p).add .posInf = .posInf := rfl
      rw [hbound, hsum, below_posInf_posInf, hj, hright rfl]
      rfl
    · -- A sum of finite numbers is below an infinite bound whatever the flags are.
      rcases hhigh with rfl | ⟨h, rfl, -⟩ <;> rcases hhigh' with rfl | ⟨k, rfl, -⟩
      · exact below_posInf_fin
      · exact below_posInf_fin
      · exact below_posInf_fin
      · exact below_add_fin hx hy

theorem above_sub (hx : Above (.fin l) i x) (hy : Below (.fin k) j (.fin q)) :
    Above (.fin (l - k)) (i && j) (x.sub (.fin q)) := by
  rw [below_fin_fin] at hy
  rcases hx.cases with rfl | ⟨p, rfl, hp⟩
  · exact above_fin_posInf
  · rw [above_fin_fin] at hx
    rw [fin_sub_fin, above_fin_fin, Bool.and_eq_true]
    rcases hx with hx | ⟨rfl, hi⟩
    · refine .inl ((sub_lt_sub_right hx k).trans_le (sub_le_sub_left ?_ p))
      exact hy.elim le_of_lt fun hy => hy.1.le
    · rcases hy with hy | ⟨rfl, hj⟩
      · exact .inl (sub_lt_sub_left hy _)
      · exact .inr ⟨rfl, hi, hj⟩

theorem below_sub_fin (hx : Below (.fin h) i (.fin p)) (hy : Above (.fin m) j (.fin q)) :
    Below (.fin (h - m)) (i && j) (.fin (p - q)) := by
  rw [below_fin_fin] at hx ⊢
  rw [above_fin_fin] at hy
  rw [Bool.and_eq_true]
  rcases hx with hx | ⟨rfl, hi⟩
  · refine .inl ((sub_lt_sub_right hx q).trans_le (sub_le_sub_left ?_ h))
    exact hy.elim le_of_lt fun hy => hy.1.le
  · rcases hy with hy | ⟨rfl, hj⟩
    · exact .inl (sub_lt_sub_left hy _)
    · exact .inr ⟨rfl, hi, hj⟩

/-- The upper side of a difference. An infinity on the left attains the bound alone. -/
theorem below_sub (hhigh : high.Positive) (hx : Below high i x) (hy : Above (.fin m) j (.fin q))
    (hxv : x.NonNeg) (hleft : x = .posInf → j) :
    Below (high.sub (.fin m)) (i && j) (x.sub (.fin q)) := by
  rcases hxv with rfl | ⟨p, rfl, -⟩
  · obtain ⟨rfl, hi⟩ := hx.posInf
    rw [posInf_sub_fin, posInf_sub_fin, below_posInf_posInf, hi, hleft rfl]
    rfl
  · rcases hhigh with rfl | ⟨h, rfl, -⟩
    · exact below_posInf_fin
    · rw [fin_sub_fin, fin_sub_fin]
      exact below_sub_fin hx hy

/-- A quotient of finite numbers is smallest at the lower bound over the upper one. The bound is
attained there, or anywhere below a zero. -/
theorem above_div_fin (hl : 0 ≤ l) (hq : 0 < q) (hx : Above (.fin l) i (.fin p))
    (hy : Below (.fin k) j (.fin q)) (hzero : p = 0 → j) :
    Above (.fin (l / k)) (i && j) (.fin (p / q)) := by
  rw [above_fin_fin] at hx
  rw [below_fin_fin] at hy
  have hlp : l ≤ p := hx.elim le_of_lt fun hx => hx.1.le
  have hqk : q ≤ k := hy.elim le_of_lt fun hy => hy.1.le
  rw [above_fin_fin, Bool.and_eq_true, div_lt_div_iff₀ (hq.trans_le hqk) hq]
  rcases hx with hx | ⟨rfl, hi⟩
  · refine .inl ((mul_lt_mul_of_pos_right hx hq).trans_le ?_)
    exact mul_le_mul_of_nonneg_left hqk (hl.trans hlp)
  · rcases hl.eq_or_lt with rfl | hpos
    · exact .inr ⟨by simp, hi, hzero rfl⟩
    · rcases hy with hy | ⟨rfl, hj⟩
      · exact .inl (mul_lt_mul_of_pos_left hy hpos)
      · exact .inr ⟨rfl, hi, hj⟩

/-- A quotient of finite numbers is largest at the upper bound over the lower one. -/
theorem below_div_fin (hm : 0 < m) (hh : 0 < h) (hx : Below (.fin h) i (.fin p))
    (hy : Above (.fin m) j (.fin q)) :
    Below (.fin (h / m)) (i && j) (.fin (p / q)) := by
  rw [below_fin_fin] at hx
  rw [above_fin_fin] at hy
  have hmq : m ≤ q := hy.elim le_of_lt fun hy => hy.1.le
  rw [below_fin_fin, Bool.and_eq_true, div_lt_div_iff₀ (hm.trans_le hmq) hm]
  rcases hx with hx | ⟨rfl, hi⟩
  · refine .inl ((mul_lt_mul_of_pos_right hx hm).trans_le ?_)
    exact mul_le_mul_of_nonneg_left hmq hh.le
  · rcases hy with hy | ⟨rfl, hj⟩
    · exact .inl (mul_lt_mul_of_pos_left hy hh)
    · exact .inr ⟨rfl, hi, hj⟩

/-- The lower side of a quotient. A zero on the left and an infinity on the right attain the
bound zero alone. -/
theorem above_div (hl : 0 ≤ l) (hhigh : high.Positive) (hx : Above (.fin l) i x)
    (hy : Below high j y) (hyv : y.NonNeg) (hinf : ¬ (x = .posInf ∧ y = .posInf))
    (hzero : x = .fin 0 → j) (habsorb : y = .posInf → i) :
    Above (Bound.extDiv (.fin l) high) (i && j) (Bound.extDiv x y) := by
  have hlow : ∃ n, Bound.extDiv (.fin l) high = .fin n := by
    rcases hhigh with rfl | ⟨k, rfl, hk⟩
    · exact ⟨0, rfl⟩
    · exact ⟨l / k, extDiv_fin_fin hk.ne'⟩
  obtain ⟨n, hn⟩ := hlow
  rcases hyv with rfl | ⟨q, rfl, hq⟩
  · -- Over infinity every finite number gives the bound zero itself.
    obtain ⟨rfl, hj⟩ := hy.posInf
    rcases hx.cases with rfl | ⟨p, rfl, -⟩
    · exact absurd ⟨rfl, rfl⟩ hinf
    · rw [extDiv_fin_posInf, extDiv_fin_posInf, above_fin_fin]
      exact .inr ⟨rfl, by rw [habsorb rfl, hj]; rfl⟩
  · rcases hq.eq_or_lt with rfl | hq
    · rw [hn, extDiv_zero]
      exact above_fin_posInf
    · rcases hx.cases with rfl | ⟨p, rfl, hp⟩
      · rw [hn, extDiv_posInf_fin hq.le]
        exact above_fin_posInf
      · rw [extDiv_fin_fin hq.ne']
        rcases hhigh with rfl | ⟨k, rfl, hk⟩
        · -- The bound is zero, and only a zero on the left attains it.
          rw [extDiv_fin_posInf, above_fin_fin]
          rcases (hl.trans hp).eq_or_lt with rfl | hpos
          · obtain rfl : l = 0 := le_antisymm hp hl
            have hi : i := by simpa [above_fin_fin] using hx
            exact .inr ⟨by simp, by rw [hi, hzero rfl]; rfl⟩
          · exact .inl (div_pos hpos hq)
        · rw [extDiv_fin_fin hk.ne']
          exact above_div_fin hl hq hx hy fun h => hzero (by rw [h])

/-- The upper side of a quotient. An infinity on the left and a zero on the right attain the bound
infinity alone. -/
theorem below_div (hm : 0 ≤ m) (hhigh : high.Positive) (hx : Below high i x) (hxv : x.NonNeg)
    (hy : Above (.fin m) j y) (hinf : ¬ (x = .posInf ∧ y = .posInf))
    (habsorb : x = .posInf → j) (hzero : y = .fin 0 → i) :
    Below (Bound.extDiv high (.fin m)) (i && j) (Bound.extDiv x y) := by
  rcases hxv with rfl | ⟨p, rfl, hp⟩
  · obtain ⟨rfl, hi⟩ := hx.posInf
    rcases hy.cases with rfl | ⟨q, rfl, hq⟩
    · exact absurd ⟨rfl, rfl⟩ hinf
    · rw [extDiv_posInf_fin hm, extDiv_posInf_fin (hm.trans hq), below_posInf_posInf, hi,
        habsorb rfl]
      rfl
  · -- A finite number over anything is finite, except over zero.
    rcases hy.cases with rfl | ⟨q, rfl, hq⟩
    · rw [extDiv_fin_posInf]
      rcases hm.eq_or_lt with rfl | hm
      · exact below_posInf_fin
      · rcases hhigh with rfl | ⟨h, rfl, hh⟩
        · rw [extDiv_posInf_fin hm.le]
          exact below_posInf_fin
        · rw [extDiv_fin_fin hm.ne', below_fin_fin]
          exact .inl (div_pos hh hm)
    · rcases (hm.trans hq).eq_or_lt with rfl | hpos
      · obtain rfl : m = 0 := le_antisymm hq hm
        have hj : j := by simpa [above_fin_fin] using hy
        rw [extDiv_zero, extDiv_zero, below_posInf_posInf, hzero rfl, hj]
        rfl
      · rw [extDiv_fin_fin hpos.ne']
        rcases hm.eq_or_lt with rfl | hm
        · exact below_posInf_fin
        · rcases hhigh with rfl | ⟨h, rfl, hh⟩
          · rw [extDiv_posInf_fin hm.le]
            exact below_posInf_fin
          · rw [extDiv_fin_fin hm.ne']
            exact below_div_fin hm hh hx hy

end Sides

end Exact

namespace Interval

open Exact

variable {a b c iv : Interval Exact} {x y z : Exact}

/-- Whether the bounds are those of an interval: not negative and ascending. -/
def Valid (iv : Interval Exact) : Prop :=
  validBounds iv.low iv.high

/-- A valid interval starts at a finite number and ends above it, perhaps at infinity. -/
theorem Valid.cases (h : iv.Valid) :
    ∃ l, iv.low = .fin l ∧ 0 ≤ l ∧ (iv.high = .posInf ∨ ∃ k, iv.high = .fin k ∧ l < k) := by
  obtain ⟨low, high, il, ih⟩ := iv
  -- All other combinations of bounds fail one of the comparisons.
  cases low <;> cases high <;>
    simp_all [Valid, validBounds, Bound.isNaN, Bound.lt, Bound.le, Bound.zero, isUndefined,
      Exact.lt, Exact.le]

/-- Membership, side by side. -/
theorem contains_iff (h : iv.Valid) (x : Exact) :
    iv.contains x ↔ Above iv.low iv.includesLow x ∧ Below iv.high iv.includesHigh x := by
  obtain ⟨l, hlow, -, hhigh⟩ := h.cases
  obtain ⟨low, high, il, ih⟩ := iv
  dsimp only at hlow hhigh ⊢
  subst hlow
  unfold contains
  simp only [Bound.isNaN, Bound.lt, Bound.eq]
  -- Membership looks at the lower bound first, so the sides agree with it only because the bounds
  -- differ.
  cases x with
  | negInf => simp [isUndefined, Exact.lt, Above]
  | undefined => simp [isUndefined, Above, Exact.lt]
  | posInf =>
    rcases hhigh with rfl | ⟨k, rfl, -⟩
    · simp [isUndefined, Exact.lt, Exact.eq, Above, Below]
    · simp [isUndefined, Exact.lt, Below]
  | fin q =>
    rcases hhigh with rfl | ⟨k, rfl, hlk⟩
    · rw [above_fin_fin, iff_true_intro below_posInf_fin]
      grind [isUndefined, Exact.lt, Exact.eq]
    · rw [above_fin_fin, below_fin_fin]
      grind [isUndefined, Exact.lt, Exact.eq]

/-- An upper bound lies above zero. -/
theorem Valid.high_positive (h : iv.Valid) : iv.high.Positive := by
  obtain ⟨l, -, hl, hhigh⟩ := h.cases
  exact hhigh.imp_right fun ⟨k, hk, hlk⟩ => ⟨k, hk, hl.trans_lt hlk⟩

/-- A member is infinity, at an included infinite bound, or a finite number that is not
negative. -/
theorem Valid.member_nonneg (h : iv.Valid) (hx : iv.contains x) : x.NonNeg := by
  obtain ⟨l, hlow, hl, -⟩ := h.cases
  have habove := ((contains_iff h x).1 hx).1
  rw [hlow] at habove
  rcases habove.cases with rfl | ⟨q, rfl, hq⟩
  · exact .inl rfl
  · exact .inr ⟨q, rfl, hl.trans hq⟩

/-! ## The paired bounds -/

/-- The bounds of a sum. -/
def sum (a b : Interval Exact) : Interval Exact :=
  ⟨Bound.add a.low b.low, Bound.add a.high b.high, a.includesLow && b.includesLow,
    a.includesHigh && b.includesHigh⟩

/-- The bounds of a difference. -/
def difference (a b : Interval Exact) : Interval Exact :=
  ⟨Bound.sub a.low b.high, Bound.sub a.high b.low, a.includesLow && b.includesHigh,
    a.includesHigh && b.includesLow⟩

/-- The bounds of a quotient. -/
def quotient (a b : Interval Exact) : Interval Exact :=
  ⟨Bound.extDiv a.low b.high, Bound.extDiv a.high b.low, a.includesLow && b.includesHigh,
    a.includesHigh && b.includesLow⟩

theorem derive_eq_ok {op : String} {low high : Exact} {il ih : Bool} :
    derive op a b low high il ih = .ok c ↔ c.Valid ∧ c = ⟨low, high, il, ih⟩ := by
  unfold derive
  split
  · next hvalid =>
    constructor
    · intro h
      cases h
      exact ⟨hvalid, rfl⟩
    · rintro ⟨-, rfl⟩
      rfl
  · next hvalid =>
    simp only [reduceCtorEq, false_iff]
    rintro ⟨hc, rfl⟩
    exact hvalid hc

theorem add_eq_ok : a.add b = .ok c ↔ c.Valid ∧ c = a.sum b :=
  derive_eq_ok

theorem sub_eq_ok : a.sub b = .ok c ↔ c.Valid ∧ c = a.difference b :=
  derive_eq_ok

theorem div_eq_ok :
    a.div b = .ok c ↔
      ¬ (a.contains (.fin 0) ∧ b.contains (.fin 0)) ∧
        ¬ (a.contains .posInf ∧ b.contains .posInf) ∧ c.Valid ∧ c = a.quotient b := by
  unfold div
  dsimp only
  rw [← Bool.and_eq_true, ← Bool.and_eq_true]
  split
  · next h => simp [show (a.contains (.fin 0) && b.contains (.fin 0)) = true from h]
  · next hzero =>
    split
    · next h => simp [show (a.contains .posInf && b.contains .posInf) = true from h]
    · next hinf =>
      rw [derive_eq_ok]
      exact ⟨fun h => ⟨hzero, hinf, h⟩, fun h => h.2.2⟩

/-- Whether no excluded bound is paired with an included one that absorbs it. -/
def KeepsAttained (op : Op) (a b : Interval Exact) : Prop :=
  match op with
  | .add => (a.contains .posInf → b.includesHigh) ∧ (b.contains .posInf → a.includesHigh)
  | .sub => a.contains .posInf → b.includesLow
  | .truediv =>
    ((a.contains (.fin 0) → b.includesHigh) ∧ (b.contains .posInf → a.includesLow)) ∧
      (a.contains .posInf → b.includesLow) ∧ (b.contains (.fin 0) → a.includesHigh)
  | _ => True

theorem contains_sum (ha : a.Valid) (hb : b.Valid) (hc : (a.sum b).Valid) (hx : a.contains x)
    (hy : b.contains y) (hkeep : KeepsAttained .add a b) : (a.sum b).contains (x.add y) := by
  obtain ⟨l, hal, -⟩ := ha.cases
  obtain ⟨m, hbl, -⟩ := hb.cases
  obtain ⟨hxl, hxh⟩ := (contains_iff ha x).1 hx
  obtain ⟨hyl, hyh⟩ := (contains_iff hb y).1 hy
  rw [contains_iff hc]
  constructor
  · change Above (a.low.add b.low) (a.includesLow && b.includesLow) (x.add y)
    rw [hal] at hxl ⊢
    rw [hbl] at hyl ⊢
    exact above_add hxl hyl
  · change Below (a.high.add b.high) (a.includesHigh && b.includesHigh) (x.add y)
    refine below_add ha.high_positive hb.high_positive hxh hyh (ha.member_nonneg hx)
      (hb.member_nonneg hy) (fun h => ?_) (fun h => ?_)
    · exact hkeep.1 (h ▸ hx)
    · exact hkeep.2 (h ▸ hy)

/-- The upper bound of what can be subtracted is finite. -/
theorem Valid.high_of_difference (ha : a.Valid) (hb : b.Valid) (hc : (a.difference b).Valid) :
    ∃ k, b.high = .fin k := by
  obtain ⟨l, hal, -⟩ := ha.cases
  obtain ⟨-, -, -, hbh | ⟨k, hbh, -⟩⟩ := hb.cases
  · obtain ⟨n, hn, -⟩ := hc.cases
    change a.low.sub b.high = .fin n at hn
    rw [hal, hbh] at hn
    cases hn
  · exact ⟨k, hbh⟩

/-- What is subtracted is finite. -/
theorem Valid.subtrahend (ha : a.Valid) (hb : b.Valid) (hc : (a.difference b).Valid)
    (hy : b.contains y) : ∃ q, y = .fin q := by
  obtain ⟨k, hbh⟩ := ha.high_of_difference hb hc
  rcases hb.member_nonneg hy with rfl | ⟨q, rfl, -⟩
  · have hyh := ((contains_iff hb _).1 hy).2
    rw [hbh] at hyh
    exact absurd hyh not_below_fin_posInf
  · exact ⟨q, rfl⟩

theorem contains_difference (ha : a.Valid) (hb : b.Valid) (hc : (a.difference b).Valid)
    (hx : a.contains x) (hy : b.contains y) (hkeep : KeepsAttained .sub a b) :
    (a.difference b).contains (x.sub y) := by
  obtain ⟨l, hal, -⟩ := ha.cases
  obtain ⟨m, hbl, -⟩ := hb.cases
  obtain ⟨k, hbh⟩ := ha.high_of_difference hb hc
  obtain ⟨hxl, hxh⟩ := (contains_iff ha x).1 hx
  obtain ⟨q, rfl⟩ := ha.subtrahend hb hc hy
  obtain ⟨hyl, hyh⟩ := (contains_iff hb _).1 hy
  rw [hal] at hxl
  rw [hbl] at hyl
  rw [hbh] at hyh
  rw [contains_iff hc]
  constructor
  · change Above (a.low.sub b.high) (a.includesLow && b.includesHigh) (x.sub (.fin q))
    rw [hal, hbh, fin_sub_fin]
    exact above_sub hxl hyh
  · change Below (a.high.sub b.low) (a.includesHigh && b.includesLow) (x.sub (.fin q))
    rw [hbl]
    exact below_sub ha.high_positive hxh hyl (ha.member_nonneg hx) fun h => hkeep (h ▸ hx)

theorem contains_quotient (ha : a.Valid) (hb : b.Valid) (hc : (a.quotient b).Valid)
    (hx : a.contains x) (hy : b.contains y) (hinf : ¬ (x = .posInf ∧ y = .posInf))
    (hkeep : KeepsAttained .truediv a b) : (a.quotient b).contains (Bound.extDiv x y) := by
  obtain ⟨l, hal, hl, -⟩ := ha.cases
  obtain ⟨m, hbl, hm, -⟩ := hb.cases
  obtain ⟨hxl, hxh⟩ := (contains_iff ha x).1 hx
  obtain ⟨hyl, hyh⟩ := (contains_iff hb y).1 hy
  obtain ⟨⟨hzeroLeft, hinfRight⟩, hinfLeft, hzeroRight⟩ := hkeep
  rw [hal] at hxl
  rw [hbl] at hyl
  rw [contains_iff hc]
  constructor
  · change Above (Bound.extDiv a.low b.high) (a.includesLow && b.includesHigh) (Bound.extDiv x y)
    rw [hal]
    refine above_div hl hb.high_positive hxl hyh (hb.member_nonneg hy) hinf (fun h => ?_)
      (fun h => ?_)
    · exact hzeroLeft (h ▸ hx)
    · exact hinfRight (h ▸ hy)
  · change Below (Bound.extDiv a.high b.low) (a.includesHigh && b.includesLow) (Bound.extDiv x y)
    rw [hbl]
    refine below_div hm ha.high_positive hxh (ha.member_nonneg hx) hyl hinf (fun h => ?_)
      (fun h => ?_)
    · exact hinfLeft (h ▸ hx)
    · exact hzeroRight (h ▸ hy)

/-! ## Operations that succeed -/

/-- `c` is the result of an operator on `a` and `b`. -/
inductive Yields (a b c : Interval Exact) : Op → Prop
  | add : a.add b = .ok c → Yields a b c .add
  | sub : a.sub b = .ok c → Yields a b c .sub
  | div : a.div b = .ok c → Yields a b c .truediv

variable {op : Op}

theorem Yields.valid (h : Yields a b c op) : c.Valid := by
  cases h with
  | add h => exact (add_eq_ok.1 h).1
  | sub h => exact (sub_eq_ok.1 h).1
  | div h => exact (div_eq_ok.1 h).2.2.1

/-- On members of its operands, a result of the checked operators is never indeterminate, and it
is a member of the result if attained bounds are kept. -/
theorem Yields.exists_apply (h : Yields a b c op) (ha : a.Valid) (hb : b.Valid)
    (hx : a.contains x) (hy : b.contains y) :
    ∃ z, apply op x y = .ok z ∧ (KeepsAttained op a b → c.contains z) := by
  cases h with
  | add h =>
    obtain ⟨hc, rfl⟩ := add_eq_ok.1 h
    exact ⟨_, rfl, contains_sum ha hb hc hx hy⟩
  | sub h =>
    obtain ⟨hc, rfl⟩ := sub_eq_ok.1 h
    obtain ⟨q, rfl⟩ := ha.subtrahend hb hc hy
    exact ⟨_, if_neg (by simp), contains_difference ha hb hc hx hy⟩
  | div h =>
    obtain ⟨hzero, hinf, hc, rfl⟩ := div_eq_ok.1 h
    -- The checks on the operands exclude both forms for their members.
    have hzero' : ¬ (x = .fin 0 ∧ y = .fin 0) := by
      rintro ⟨rfl, rfl⟩
      exact hzero ⟨hx, hy⟩
    have hinf' : ¬ (x = .posInf ∧ y = .posInf) := by
      rintro ⟨rfl, rfl⟩
      exact hinf ⟨hx, hy⟩
    refine ⟨Bound.extDiv x y, ?_, contains_quotient ha hb hc hx hy hinf'⟩
    rw [apply, if_neg hzero', if_neg hinf']

/-- The interval with both its bounds included. -/
def hull (iv : Interval Exact) : Interval Exact :=
  ⟨iv.low, iv.high, true, true⟩

theorem contains_hull (h : iv.Valid) (hx : iv.contains x) : iv.hull.contains x := by
  obtain ⟨hlow, hhigh⟩ := (contains_iff h x).1 hx
  have hvalid : iv.hull.Valid := h
  refine (contains_iff hvalid x).2 ⟨?_, ?_⟩
  · exact hlow.imp_right fun h => ⟨h.1, rfl⟩
  · exact hhigh.imp_right fun h => ⟨h.1, rfl⟩

/-- Values between the bounds of the operands have a result between the bounds of the result, or
they form one of the quotients without a value. A difference always has one. -/
theorem Yields.hull_contains (h : Yields a b c op) (ha : a.Valid) (hb : b.Valid)
    (hx : a.hull.contains x) (hy : b.hull.contains y) :
    match apply op x y with
    | .ok z => c.hull.contains z
    | .error why => why = .zeroOverZero ∨ why = .infinityOverInfinity := by
  cases h with
  -- A hull includes its bounds, so it keeps those that are attained.
  | add h =>
    obtain ⟨hc, rfl⟩ := add_eq_ok.1 h
    exact contains_sum (a := a.hull) (b := b.hull) ha hb hc hx hy ⟨fun _ => rfl, fun _ => rfl⟩
  | sub h =>
    obtain ⟨hc, rfl⟩ := sub_eq_ok.1 h
    obtain ⟨q, rfl⟩ := Valid.subtrahend (a := a.hull) (b := b.hull) ha hb hc hy
    rw [apply, if_neg (by simp)]
    exact contains_difference (a := a.hull) (b := b.hull) ha hb hc hx hy fun _ => rfl
  | div h =>
    obtain ⟨-, -, hc, rfl⟩ := div_eq_ok.1 h
    by_cases hzero : x = .fin 0 ∧ y = .fin 0
    · rw [apply, if_pos hzero]
      exact .inl rfl
    · by_cases hinf : x = .posInf ∧ y = .posInf
      · rw [apply, if_neg hzero, if_pos hinf]
        exact .inr rfl
      · rw [apply, if_neg hzero, if_neg hinf]
        exact contains_quotient (a := a.hull) (b := b.hull) ha hb hc hx hy hinf
          ⟨⟨fun _ => rfl, fun _ => rfl⟩, fun _ => rfl, fun _ => rfl⟩

/-! ## The flags are exact -/

/-- Every interval has a positive finite member. -/
theorem Valid.exists_pos (h : iv.Valid) : ∃ q, 0 < q ∧ iv.contains (.fin q) := by
  obtain ⟨l, hlow, hl, hhigh⟩ := h.cases
  -- One more than the lower bound, or the middle if there is an upper one.
  rcases hhigh with hhigh | ⟨k, hhigh, hlk⟩
  · refine ⟨l + 1, by linarith, (contains_iff h _).2 ⟨?_, ?_⟩⟩
    · rw [hlow, above_fin_fin]
      exact .inl (by linarith)
    · rw [hhigh]
      exact below_posInf_fin
  · refine ⟨(l + k) / 2, by linarith, (contains_iff h _).2 ⟨?_, ?_⟩⟩
    · rw [hlow, above_fin_fin]
      exact .inl (by linarith)
    · rw [hhigh, below_fin_fin]
      exact .inl (by linarith)

/-- Infinity is a member only as an included upper bound. -/
theorem Valid.includesHigh (h : iv.Valid) (hx : iv.contains .posInf) : iv.includesHigh :=
  ((contains_iff h _).1 hx).2.posInf.2

/-- Zero is a member only as an included lower bound. -/
theorem Valid.includesLow (h : iv.Valid) (hx : iv.contains (.fin 0)) : iv.includesLow := by
  obtain ⟨l, hlow, hl, -⟩ := h.cases
  have habove := ((contains_iff h _).1 hx).1
  rw [hlow, above_fin_fin] at habove
  rcases habove with hlt | ⟨-, hi⟩
  · exact absurd hlt hl.not_gt
  · exact hi

/-- Where all members have their results in `c`, attained bounds are kept: an absorbing member
together with a finite positive member of the other operand attains the paired bound. -/
theorem Yields.keepsAttained (h : Yields a b c op) (ha : a.Valid) (hb : b.Valid)
    (hsound : ∀ x y, a.contains x → b.contains y → ∃ z, apply op x y = .ok z ∧ c.contains z) :
    KeepsAttained op a b := by
  obtain ⟨p, hp, hpa⟩ := ha.exists_pos
  obtain ⟨q, hq, hqb⟩ := hb.exists_pos
  have hmember {x y z : Exact} (hx : a.contains x) (hy : b.contains y)
      (hz : apply op x y = .ok z) : c.contains z := by
    obtain ⟨z', hz', hcz⟩ := hsound x y hx hy
    rw [hz] at hz'
    cases hz'
    exact hcz
  -- The attained bound is a member, so its flag is set, and with it the flags of both its parts.
  cases h with
  | add h =>
    obtain ⟨hc, rfl⟩ := add_eq_ok.1 h
    constructor
    · intro hx
      exact (Bool.and_eq_true_iff.1 (hc.includesHigh (hmember hx hqb rfl))).2
    · intro hy
      exact (Bool.and_eq_true_iff.1 (hc.includesHigh (hmember hpa hy rfl))).1
  | sub h =>
    obtain ⟨hc, rfl⟩ := sub_eq_ok.1 h
    intro hx
    have hz : apply .sub .posInf (.fin q) = .ok .posInf := by
      rw [apply, if_neg (by simp)]
      rfl
    exact (Bool.and_eq_true_iff.1 (hc.includesHigh (hmember hx hqb hz))).2
  | div h =>
    obtain ⟨-, -, hc, rfl⟩ := div_eq_ok.1 h
    refine ⟨⟨fun hx => ?_, fun hy => ?_⟩, fun hx => ?_, fun hy => ?_⟩
    · have hz : apply .truediv (.fin 0) (.fin q) = .ok (.fin 0) := by
        rw [apply, if_neg (by simp [hq.ne']), if_neg (by simp), extDiv_fin_fin hq.ne', zero_div]
      exact (Bool.and_eq_true_iff.1 (hc.includesLow (hmember hx hqb hz))).2
    · have hz : apply .truediv (.fin p) .posInf = .ok (.fin 0) := by
        rw [apply, if_neg (by simp), if_neg (by simp), extDiv_fin_posInf]
      exact (Bool.and_eq_true_iff.1 (hc.includesLow (hmember hpa hy hz))).1
    · have hz : apply .truediv .posInf (.fin q) = .ok .posInf := by
        rw [apply, if_neg (by simp), if_neg (by simp), extDiv_posInf_fin hq.le]
      exact (Bool.and_eq_true_iff.1 (hc.includesHigh (hmember hx hqb hz))).2
    · have hz : apply .truediv (.fin p) (.fin 0) = .ok .posInf := by
        rw [apply, if_neg (by simp [hp.ne']), if_neg (by simp), extDiv_zero]
      exact (Bool.and_eq_true_iff.1 (hc.includesHigh (hmember hpa hy hz))).1

/-- An operation that succeeds is sound on all members exactly if it keeps attained bounds. -/
theorem sound_iff_keepsAttained (h : Yields a b c op) (ha : a.Valid) (hb : b.Valid) :
    (∀ x y, a.contains x → b.contains y → ∃ z, apply op x y = .ok z ∧ c.contains z) ↔
      KeepsAttained op a b := by
  refine ⟨h.keepsAttained ha hb, fun hkeep x y hx hy => ?_⟩
  obtain ⟨z, hz, hcz⟩ := h.exists_apply ha hb hx hy
  exact ⟨z, hz, hcz hkeep⟩

theorem Yields.closed (h : Yields a b c op) (ha : a.includesLow ∧ a.includesHigh)
    (hb : b.includesLow ∧ b.includesHigh) : c.includesLow ∧ c.includesHigh := by
  cases h with
  | add h =>
    obtain ⟨-, rfl⟩ := add_eq_ok.1 h
    simp [sum, ha, hb]
  | sub h =>
    obtain ⟨-, rfl⟩ := sub_eq_ok.1 h
    simp [difference, ha, hb]
  | div h =>
    obtain ⟨-, -, -, rfl⟩ := div_eq_ok.1 h
    simp [quotient, ha, hb]

/-- Only an excluded bound can fail to be kept. -/
theorem keepsAttained_of_closed (ha : a.includesLow ∧ a.includesHigh)
    (hb : b.includesLow ∧ b.includesHigh) : KeepsAttained op a b := by
  cases op <;> simp [KeepsAttained, ha, hb]

end Interval

theorem Domain.map_interval_eq_ok {r : Except (TypeError Exact) (Interval Exact)} {ty : Ty Exact}
    (h : (r.map fun i => some (Ty.interval i)) = .ok (some ty)) :
    ∃ c, r = .ok c ∧ ty = .interval c := by
  cases r with
  | error e => cases h
  | ok c =>
    cases h
    exact ⟨c, rfl, rfl⟩

/-- The interval domain knows sums, differences and quotients of two intervals. -/
theorem Domain.resolve_interval_eq_ok {op : Op} {tys : List (Option (Ty Exact))} {ty : Ty Exact} :
    Domain.interval.resolve op tys = .ok (some ty) ↔
      ∃ a b c, tys = [some (.interval a), some (.interval b)] ∧ ty = .interval c ∧
        Interval.Yields a b c op := by
  constructor
  · intro h
    change resolveInterval op tys = _ at h
    unfold resolveInterval at h
    split at h
    next a b =>
      obtain ⟨c, hc, rfl⟩ := map_interval_eq_ok h
      exact ⟨a, b, c, rfl, rfl, .add hc⟩
    next a b =>
      obtain ⟨c, hc, rfl⟩ := map_interval_eq_ok h
      exact ⟨a, b, c, rfl, rfl, .sub hc⟩
    next a b =>
      obtain ⟨c, hc, rfl⟩ := map_interval_eq_ok h
      exact ⟨a, b, c, rfl, rfl, .div hc⟩
    next => cases h
  · rintro ⟨a, b, c, rfl, rfl, h⟩
    cases h with
    | add h => simp only [interval, resolveInterval, h, Except.map]
    | sub h => simp only [interval, resolveInterval, h, Except.map]
    | div h => simp only [interval, resolveInterval, h, Except.map]

end ExprTyping
