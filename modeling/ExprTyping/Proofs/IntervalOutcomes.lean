import ExprTyping.Proofs.IntervalResults

/-!
# Outcomes of interval operations

When an operation on intervals fails, and what it gives when it does not. The operations pair bounds
first and leave it to the test of the paired bounds to refuse them. For valid operands that test
refuses only differences that could be negative: a sum always passes it, and so does every quotient
that the two tests for indeterminate forms let through.

On closed operands a success is exact. Each value between the bounds of the result is attained by
moving along two sides of the box of operands: one operand stays at a bound while the other one runs
through its interval, and then they change roles.

- `Interval.Valid.add_eq`, `Valid.sub_eq` and `Valid.div_eq`: what the operations give;
- `Interval.operations_fail_iff`: the errors of the operations, each with its condition;
- `Interval.exists_sum`, `exists_difference` and `exists_quotient`: what lies between the bounds of
  a result on closed operands is attained;
- `Interval.contains_result_iff`: a result on closed operands holds the values of the operation and
  no others.
-/

namespace ExprTyping

namespace Exact

variable {x high : Exact}

theorem Positive.lt_fin_iff (h : high.Positive) (l : Rat) :
    (Exact.fin l).lt high ↔ ¬ high.le (.fin l) := by
  rcases h with rfl | ⟨k, rfl, -⟩ <;> simp [le, lt]

/-- What an upper bound does not reach lies above a finite one. -/
theorem Positive.exists_lt_of_not_le (h : high.Positive) {q : Rat} (hq : ¬ (Exact.fin q).le high) :
    ∃ k, high = .fin k ∧ 0 < k ∧ k < q := by
  rcases h with rfl | ⟨k, rfl, hk⟩
  · simp [le] at hq
  · exact ⟨k, rfl, hk, by simpa [le] using hq⟩

theorem le_add_fin_iff (q k : Rat) :
    (Exact.fin q).le (x.add (.fin k)) ↔ (Exact.fin (q - k)).le x := by
  cases x <;> simp [add, le]

theorem le_sub_fin_iff (q m : Rat) :
    (Exact.fin q).le (x.sub (.fin m)) ↔ (Exact.fin (q + m)).le x := by
  cases x <;> simp [sub, neg, add, le, ← sub_eq_add_neg, le_sub_iff_add_le]

/-- A number below a quotient of bounds, times the divisor, is below the dividend. -/
theorem Positive.mul_le_of_le_extDiv (h : high.Positive) {q m : Rat} (hm : 0 ≤ m)
    (hq : (Exact.fin q).le (Bound.extDiv high (.fin m))) : (Exact.fin (q * m)).le high := by
  rcases h with rfl | ⟨k, rfl, hk⟩
  · rfl
  · rcases hm.eq_or_lt with rfl | hpos
    · simpa [le] using hk.le
    · rw [extDiv_fin_fin hpos.ne', le, decide_eq_true_eq, le_div_iff₀ hpos] at hq
      simpa [le] using hq

end Exact

namespace Interval

open Exact

variable {a b c : Interval Exact} {op : Op}

/-! ## Failures -/

/-- The constructor accepts the bounds of an interval exactly if they are valid. -/
theorem make_self_iff : make a.low a.high a.includesLow a.includesHigh = .ok a ↔ a.Valid := by
  unfold make Valid
  split <;> simp_all

/-- The error of paired bounds that are not valid. -/
def refusal (op : String) (a b : Interval Exact) (low high : Exact) : TypeError Exact :=
  ⟨.invalidInterval, op, [], [some (.interval a), some (.interval b)], low, high⟩

/-- The error of a quotient whose operands may be of an indeterminate form. -/
def indeterminate (reason : Reason) (a b : Interval Exact) : TypeError Exact :=
  .onOperands reason "truediv" [some (.interval a), some (.interval b)]

/-- A sum of intervals is never refused. -/
theorem Valid.add_eq (ha : a.Valid) (hb : b.Valid) : a.add b = .ok (a.sum b) :=
  add_eq_ok.2 ⟨ha.sum hb, rfl⟩

/-- A difference is refused exactly if a value of the second operand may exceed one of the first. -/
theorem Valid.sub_eq (ha : a.Valid) (hb : b.Valid) :
    a.sub b =
      if a.low.lt b.high then .error (refusal "sub" a b (a.low.sub b.high) (a.high.sub b.low))
      else .ok (a.difference b) := by
  obtain ⟨l, hlow, -⟩ := ha.cases
  have hvalid : ¬ a.low.lt b.high ↔ (a.difference b).Valid := by
    rw [valid_difference_iff ha hb, hlow, hb.high_positive.lt_fin_iff, not_not]
  split
  · next hlt => exact if_neg fun h => hvalid.2 h hlt
  · next hlt => exact if_pos (hvalid.1 hlt)

/-- A quotient is refused by the tests for indeterminate forms alone: its paired bounds are always
valid. -/
theorem Valid.div_eq (ha : a.Valid) (hb : b.Valid) :
    a.div b =
      if a.contains (.fin 0) ∧ b.contains (.fin 0) then
        .error (indeterminate .possibleZeroOverZero a b)
      else if a.contains .posInf ∧ b.contains .posInf then
        .error (indeterminate .possibleInfOverInf a b)
      else .ok (a.quotient b) := by
  have hvalid : validBounds (Bound.extDiv a.low b.high) (Bound.extDiv a.high b.low) :=
    ha.quotient hb
  simp only [← Bool.and_eq_true]
  unfold div derive
  rw [if_pos hvalid]
  rfl

/-- Which operations on intervals fail, and with which error. A sum never does. A difference does if
some value of the second operand exceeds one of the first, as it always may if that operand has no
finite upper bound. A quotient does if both operands contain zero, or else if both contain infinity.
Every other result is accepted as an interval again. -/
theorem operations_fail_iff
    (ha : make a.low a.high a.includesLow a.includesHigh = .ok a)
    (hb : make b.low b.high b.includesLow b.includesHigh = .ok b) :
    (∀ e, a.add b ≠ .error e) ∧
    (∀ e, a.sub b = .error e ↔
      a.low.lt b.high ∧ e = refusal "sub" a b (a.low.sub b.high) (a.high.sub b.low)) ∧
    (b.high = .posInf → a.low.lt b.high) ∧
    (∀ e, a.div b = .error e ↔
      (a.contains (.fin 0) ∧ b.contains (.fin 0)) ∧
          e = indeterminate .possibleZeroOverZero a b ∨
        (a.contains .posInf ∧ b.contains .posInf) ∧ ¬ (a.contains (.fin 0) ∧ b.contains (.fin 0)) ∧
          e = indeterminate .possibleInfOverInf a b) ∧
    ∀ c, a.add b = .ok c ∨ a.sub b = .ok c ∨ a.div b = .ok c →
      make c.low c.high c.includesLow c.includesHigh = .ok c := by
  rw [make_self_iff] at ha hb
  refine ⟨fun e => ?_, fun e => ?_, fun hhigh => ?_, fun e => ?_, fun c hc => ?_⟩
  · simp [ha.add_eq hb]
  · rw [ha.sub_eq hb, @eq_comm _ e]
    split <;> simp_all
  · obtain ⟨l, hlow, -⟩ := ha.cases
    rw [hlow, hhigh]
    rfl
  · rw [ha.div_eq hb, @eq_comm _ e, @eq_comm _ e]
    split_ifs <;> simp_all
  · rw [make_self_iff]
    rcases hc with h | h | h
    · exact (Yields.add h).valid
    · exact (Yields.sub h).valid
    · exact (Yields.div h).valid

/-- Neither `[0, inf]` nor `[1, inf]` has a finite upper bound: they have a sum, but no difference
and no quotient. -/
theorem operations_fail_iff_unbounded :
    let a : Interval Exact := ⟨.fin 0, .posInf, true, true⟩
    let b : Interval Exact := ⟨.fin 1, .posInf, true, true⟩
    make a.low a.high a.includesLow a.includesHigh = .ok a ∧
      make b.low b.high b.includesLow b.includesHigh = .ok b ∧ (∀ e, a.add b ≠ .error e) ∧
      a.sub b = .error (refusal "sub" a b .negInf .posInf) ∧
      a.div b = .error (indeterminate .possibleInfOverInf a b) := by
  intro a b
  have ha : make a.low a.high a.includesLow a.includesHigh = .ok a := by cbv
  have hb : make b.low b.high b.includesLow b.includesHigh = .ok b := by cbv
  obtain ⟨hadd, hsub, hhigh, hdiv, -⟩ := operations_fail_iff ha hb
  refine ⟨ha, hb, hadd, (hsub _).2 ⟨hhigh rfl, rfl⟩, (hdiv _).2 (.inr ⟨?_, ?_, rfl⟩)⟩
  · decide +kernel
  · decide +kernel

/-! ## Exactness on closed operands -/

/-- The finite members of a closed interval. -/
theorem IsClosed.contains_fin_iff (h : a.IsClosed) {l : Rat} (hlow : a.low = .fin l) (q : Rat) :
    a.contains (.fin q) ↔ l ≤ q ∧ (Exact.fin q).le a.high := by
  rw [h.contains_iff, hlow]
  simp [Exact.le]

/-- A member is finite, or it is the upper bound. -/
theorem Valid.eq_high_or_fin (h : a.Valid) {z : Exact} (hz : a.contains z) :
    z = a.high ∨ ∃ q, z = .fin q := by
  rcases h.member_nonneg hz with rfl | ⟨q, rfl, -⟩
  · exact .inl ((contains_iff h _).1 hz).2.posInf.1.symm
  · exact .inr ⟨q, rfl⟩

/-- Every member of a sum of closed intervals is a sum of members. -/
theorem exists_sum (ha : a.IsClosed) (hb : b.IsClosed) (hc : (a.sum b).IsClosed) {z : Exact}
    (hz : (a.sum b).contains z) : ∃ x y, a.contains x ∧ b.contains y ∧ z = x.add y := by
  obtain ⟨l, hal, -⟩ := ha.valid.cases
  obtain ⟨m, hbl, -⟩ := hb.valid.cases
  have hlow : (a.sum b).low = .fin (l + m) := by
    show a.low.add b.low = _
    rw [hal, hbl, Exact.add]
  rcases hc.valid.eq_high_or_fin hz with rfl | ⟨q, rfl⟩
  · exact ⟨a.high, b.high, ha.contains_bounds.2, hb.contains_bounds.2, rfl⟩
  obtain ⟨hlq, hqh⟩ := (hc.contains_fin_iff hlow q).1 hz
  by_cases hside : (Exact.fin (q - l)).le b.high
  · -- The first operand stays at its lower bound, and the second one makes up the rest.
    refine ⟨.fin l, .fin (q - l), hal ▸ ha.contains_bounds.1, ?_, ?_⟩
    · exact (hb.contains_fin_iff hbl _).2 ⟨by linarith, hside⟩
    · rw [Exact.add, add_sub_cancel]
  · -- The second operand is used up, and the first one makes up the rest.
    obtain ⟨k, hbh, -, hk⟩ := hb.valid.high_positive.exists_lt_of_not_le hside
    have hrest : (Exact.fin (q - k)).le a.high := by
      rw [← le_add_fin_iff, ← hbh]
      exact hqh
    refine ⟨.fin (q - k), .fin k, ?_, hbh ▸ hb.contains_bounds.2, ?_⟩
    · exact (ha.contains_fin_iff hal _).2 ⟨by linarith, hrest⟩
    · rw [Exact.add, sub_add_cancel]

/-- Every member of a difference of closed intervals is a difference of members. -/
theorem exists_difference (ha : a.IsClosed) (hb : b.IsClosed) (hc : (a.difference b).IsClosed)
    {z : Exact} (hz : (a.difference b).contains z) :
    ∃ x y, a.contains x ∧ b.contains y ∧ z = x.sub y := by
  obtain ⟨l, hal, -⟩ := ha.valid.cases
  obtain ⟨m, hbl, -⟩ := hb.valid.cases
  obtain ⟨k, hbh⟩ := ha.valid.high_of_difference hb.valid hc.valid
  have hlow : (a.difference b).low = .fin (l - k) := by
    show a.low.sub b.high = _
    rw [hal, hbh, fin_sub_fin]
  rcases hc.valid.eq_high_or_fin hz with rfl | ⟨q, rfl⟩
  · exact ⟨a.high, b.low, ha.contains_bounds.2, hb.contains_bounds.1, rfl⟩
  obtain ⟨hlq, hqh⟩ := (hc.contains_fin_iff hlow q).1 hz
  rcases le_or_gt q (l - m) with hside | hside
  · -- The first operand stays at its lower bound while the second one falls to its own.
    refine ⟨.fin l, .fin (l - q), hal ▸ ha.contains_bounds.1, ?_, ?_⟩
    · refine (hb.contains_fin_iff hbl _).2 ⟨by linarith, ?_⟩
      rw [hbh, Exact.le, decide_eq_true_eq]
      linarith
    · rw [fin_sub_fin, sub_sub_cancel]
  · -- The second operand stays there, and the first one rises.
    have hrise : (Exact.fin (q + m)).le a.high := by
      rw [← le_sub_fin_iff, ← hbl]
      exact hqh
    refine ⟨.fin (q + m), .fin m, ?_, hbl ▸ hb.contains_bounds.1, ?_⟩
    · exact (ha.contains_fin_iff hal _).2 ⟨by linarith, hrise⟩
    · rw [fin_sub_fin, add_sub_cancel_right]

/-- While the dividend stays at a finite upper bound `h`, a quotient `q` has the divisor
`h / q`. -/
theorem exists_quotient_of_high (ha : a.IsClosed) (hb : b.IsClosed) {h q : Rat}
    (hhigh : a.high = .fin h) (hq : 0 < q) (hle : (Exact.fin (h / q)).le b.high)
    (hqh : (Exact.fin q).le (Bound.extDiv a.high b.low)) :
    ∃ x y, a.contains x ∧ b.contains y ∧ Exact.fin q = Bound.extDiv x y := by
  obtain ⟨l, -, hl, hah⟩ := ha.valid.cases
  obtain ⟨m, hbl, hm, -⟩ := hb.valid.cases
  have hh : 0 < h := by
    rcases hah with hah | ⟨k, hah, hlk⟩ <;> rw [hhigh] at hah <;> cases hah
    exact hl.trans_lt hlk
  have hmul : q * m ≤ h := by
    rw [hbl] at hqh
    simpa [hhigh, Exact.le] using ha.valid.high_positive.mul_le_of_le_extDiv hm hqh
  refine ⟨.fin h, .fin (h / q), hhigh ▸ ha.contains_bounds.2, ?_, ?_⟩
  · refine (hb.contains_fin_iff hbl _).2 ⟨?_, hle⟩
    rw [le_div_iff₀ hq, mul_comm]
    exact hmul
  · rw [extDiv_fin_fin (div_pos hh hq).ne', div_div_cancel₀ hh.ne']

/-- Every member of a quotient of closed intervals is a quotient of members. -/
theorem exists_quotient (ha : a.IsClosed) (hb : b.IsClosed) (hc : (a.quotient b).IsClosed)
    (hinf : ¬ (a.contains .posInf ∧ b.contains .posInf)) {z : Exact}
    (hz : (a.quotient b).contains z) :
    ∃ x y, a.contains x ∧ b.contains y ∧ z = Bound.extDiv x y := by
  obtain ⟨l, hal, hl, hah⟩ := ha.valid.cases
  obtain ⟨m, -, -, hbh⟩ := hb.valid.cases
  rcases hc.valid.eq_high_or_fin hz with rfl | ⟨q, rfl⟩
  · exact ⟨a.high, b.low, ha.contains_bounds.2, hb.contains_bounds.1, rfl⟩
  have hlow : (a.quotient b).low = Bound.extDiv (.fin l) b.high := hal ▸ rfl
  rcases hbh with hbh | ⟨k, hbh, -⟩
  · -- The divisor may be infinite, so the dividend is finite. Zero is attained over infinity.
    rcases hah with hah | ⟨h, hah, hlh⟩
    · exact absurd ⟨hah ▸ ha.contains_bounds.2, hbh ▸ hb.contains_bounds.2⟩ hinf
    rw [hbh, extDiv_fin_posInf] at hlow
    obtain ⟨hq, hqh⟩ := (hc.contains_fin_iff hlow q).1 hz
    rcases hq.eq_or_lt with rfl | hpos
    · exact ⟨.fin l, .posInf, hal ▸ ha.contains_bounds.1, hbh ▸ hb.contains_bounds.2, rfl⟩
    · exact exists_quotient_of_high ha hb hah hpos (by rw [hbh]; rfl) hqh
  · have hk : 0 < k := by simpa [hbh, Positive] using hb.valid.high_positive
    rw [hbh, extDiv_fin_fin hk.ne'] at hlow
    obtain ⟨hlq, hqh⟩ := (hc.contains_fin_iff hlow q).1 hz
    by_cases hside : (Exact.fin (q * k)).le a.high
    · -- The divisor stays at its upper bound while the dividend rises.
      refine ⟨.fin (q * k), .fin k, ?_, hbh ▸ hb.contains_bounds.2, ?_⟩
      · exact (ha.contains_fin_iff hal _).2 ⟨(div_le_iff₀ hk).1 hlq, hside⟩
      · rw [extDiv_fin_fin hk.ne', mul_div_cancel_right₀ _ hk.ne']
    · -- The dividend stays at its upper bound, and the divisor falls.
      obtain ⟨h, hah, hh, hlt⟩ := ha.valid.high_positive.exists_lt_of_not_le hside
      have hpos : 0 < q := pos_of_mul_pos_left (hh.trans hlt) hk.le
      refine exists_quotient_of_high ha hb hah hpos ?_ hqh
      rw [hbh, Exact.le, decide_eq_true_eq, div_le_iff₀ hpos]
      linarith

theorem isClosed_of_closed {low high : Exact} (h : closed low high = .ok a) : a.IsClosed := by
  unfold closed make at h
  split at h
  · next hvalid =>
    cases h
    exact ⟨hvalid, rfl, rfl⟩
  · cases h

/-- On closed operands the operations are exact: a result contains the values of the operation on
members of the operands, and nothing else. -/
theorem contains_result_iff {low high low' high' : Exact} (ha : closed low high = .ok a)
    (hb : closed low' high' = .ok b) (z : Exact) :
    (a.add b = .ok c →
      (c.contains z ↔ ∃ x y, a.contains x ∧ b.contains y ∧ z = Bound.add x y)) ∧
    (a.sub b = .ok c →
      (c.contains z ↔ ∃ x y, a.contains x ∧ b.contains y ∧ z = Bound.sub x y)) ∧
    (a.div b = .ok c →
      (c.contains z ↔ ∃ x y, a.contains x ∧ b.contains y ∧ z = Bound.extDiv x y)) := by
  have ha := isClosed_of_closed ha
  have hb := isClosed_of_closed hb
  refine ⟨fun h => ?_, fun h => ?_, fun h => ?_⟩
  · have hc := (Yields.add h).isClosed ha hb
    obtain ⟨-, rfl⟩ := add_eq_ok.1 h
    refine ⟨exists_sum ha hb hc, ?_⟩
    rintro ⟨x, y, hx, hy, rfl⟩
    exact contains_sum ha.valid hb.valid hc.valid hx hy (keepsAttained_of_closed ha.flags hb.flags)
  · have hc := (Yields.sub h).isClosed ha hb
    obtain ⟨-, rfl⟩ := sub_eq_ok.1 h
    refine ⟨exists_difference ha hb hc, ?_⟩
    rintro ⟨x, y, hx, hy, rfl⟩
    exact contains_difference ha.valid hb.valid hc.valid hx hy
      (keepsAttained_of_closed ha.flags hb.flags)
  · have hc := (Yields.div h).isClosed ha hb
    obtain ⟨-, hinf, -, rfl⟩ := div_eq_ok.1 h
    refine ⟨exists_quotient ha hb hc hinf, ?_⟩
    rintro ⟨x, y, hx, hy, rfl⟩
    refine contains_quotient ha.valid hb.valid hc.valid hx hy ?_
      (keepsAttained_of_closed ha.flags hb.flags)
    rintro ⟨rfl, rfl⟩
    exact hinf ⟨hx, hy⟩

/-- `[1, 2]` over `[0, inf]` is `[0, inf]`: zero is attained over infinity, infinity over zero, and
seven where the dividend stays at two. -/
theorem contains_result_iff_unbounded :
    let a : Interval Exact := ⟨.fin 1, .fin 2, true, true⟩
    let b : Interval Exact := ⟨.fin 0, .posInf, true, true⟩
    closed (.fin 1) (.fin 2) = .ok a ∧ closed (.fin 0) .posInf = .ok b ∧ a.div b = .ok b ∧
      ∀ z ∈ [Exact.fin 0, .posInf, .fin 7],
        ∃ x y, a.contains x ∧ b.contains y ∧ z = Bound.extDiv x y := by
  intro a b
  have ha : closed (.fin 1) (.fin 2) = .ok a := by cbv
  have hb : closed (.fin 0) .posInf = .ok b := by cbv
  have hdiv : a.div b = .ok b := by cbv
  refine ⟨ha, hb, hdiv, fun z hz => ((contains_result_iff ha hb z).2.2 hdiv).1 ?_⟩
  have hmembers : [Exact.fin 0, .posInf, .fin 7].all b.contains := by decide +kernel
  exact List.all_eq_true.1 hmembers z hz

end Interval

end ExprTyping
