import ExprTyping.Proofs.ExactIntervals

/-!
# Results of interval operations

Which paired bounds are those of an interval, and how the bounds of a result come about. A sum and a
quotient always have valid bounds; a difference has them if nothing that is subtracted exceeds what
it is subtracted from. A closed interval consists of what lies between its bounds, and the bounds of
a result on closed operands are results themselves: the operands have members at which they are
attained.

- `Interval.Valid.sum`, `valid_difference_iff` and `Valid.quotient`: when paired bounds are valid;
- `Interval.IsClosed.subset_iff`: closed intervals are compared by their bounds;
- `Interval.Yields.exists_attained`: the bounds of a result are attained.
-/

namespace ExprTyping

namespace Exact

variable {x y z : Exact}

protected theorem le_trans (hxy : x.le y) (hyz : y.le z) : x.le z := by
  -- Only infinities and finite numbers are comparable; two finite steps make one.
  cases x <;> cases y <;> cases z <;> simp_all only [le, decide_eq_true_eq, reduceCtorEq]
  exact hxy.trans hyz

theorem above_included {l : Rat} : Above (.fin l) true x ↔ (Exact.fin l).le x := by
  cases x <;> simp [Above, lt, le, le_iff_lt_or_eq]

theorem Positive.below_included {high : Exact} (h : high.Positive) :
    Below high true x ↔ x.le high := by
  rcases h with rfl | ⟨k, rfl, -⟩ <;> cases x <;> simp [Below, lt, le, le_iff_lt_or_eq]

end Exact

namespace Interval

open Exact

variable {a b c : Interval Exact} {op : Op}

/-! ## Valid results -/

theorem valid_of_bounds {iv : Interval Exact} {l : Rat} (hlow : iv.low = .fin l) (hl : 0 ≤ l)
    (hhigh : iv.high = .posInf ∨ ∃ k, iv.high = .fin k ∧ l < k) : iv.Valid := by
  unfold Valid
  rw [hlow]
  rcases hhigh with hhigh | ⟨k, hhigh, hlk⟩ <;> rw [hhigh] <;>
    simp [validBounds, Bound.isNaN, Bound.lt, Bound.le, Bound.zero, isUndefined, Exact.lt, Exact.le,
      hl]
  exact hlk

/-- A sum of intervals has valid bounds. -/
theorem Valid.sum (ha : a.Valid) (hb : b.Valid) : (a.sum b).Valid := by
  obtain ⟨l, hal, hl, hah⟩ := ha.cases
  obtain ⟨m, hbl, hm, hbh⟩ := hb.cases
  have hlow : (a.sum b).low = .fin (l + m) := by
    show a.low.add b.low = _
    rw [hal, hbl, Exact.add]
  refine valid_of_bounds hlow (add_nonneg hl hm) ?_
  show a.high.add b.high = _ ∨ ∃ k, a.high.add b.high = .fin k ∧ _
  -- An infinite bound on either side makes the sum infinite.
  rcases hah with hah | ⟨h, hah, hlh⟩ <;> rcases hbh with hbh | ⟨k, hbh, hmk⟩ <;> rw [hah, hbh]
  · exact .inl rfl
  · exact .inl rfl
  · exact .inl rfl
  · exact .inr ⟨h + k, rfl, add_lt_add hlh hmk⟩

/-- A difference has valid bounds exactly if everything that is subtracted fits below everything it
is subtracted from. -/
theorem valid_difference_iff (ha : a.Valid) (hb : b.Valid) :
    (a.difference b).Valid ↔ b.high.le a.low := by
  obtain ⟨l, hal, hl, hah⟩ := ha.cases
  obtain ⟨m, hbl, hm, hbh⟩ := hb.cases
  constructor
  · intro hc
    obtain ⟨k, hk⟩ := ha.high_of_difference hb hc
    obtain ⟨n, hn, hpos, -⟩ := hc.cases
    have hlow : (a.difference b).low = .fin (l - k) := by
      show a.low.sub b.high = _
      rw [hal, hk, fin_sub_fin]
    rw [hlow, Exact.fin.injEq] at hn
    rw [hal, hk, Exact.le, decide_eq_true_eq]
    linarith
  · intro hle
    rcases hbh with hbh | ⟨k, hbh, hmk⟩
    · -- Nothing finite lies above infinity.
      rw [hal, hbh] at hle
      exact absurd hle Bool.false_ne_true
    · rw [hal, hbh, Exact.le, decide_eq_true_eq] at hle
      have hlow : (a.difference b).low = .fin (l - k) := by
        show a.low.sub b.high = _
        rw [hal, hbh, fin_sub_fin]
      refine valid_of_bounds hlow (sub_nonneg.2 hle) ?_
      show a.high.sub b.low = _ ∨ ∃ j, a.high.sub b.low = .fin j ∧ _
      rw [hbl]
      rcases hah with hah | ⟨h, hah, hlh⟩ <;> rw [hah]
      · exact .inl rfl
      · exact .inr ⟨h - m, fin_sub_fin h m, by linarith⟩

/-- A quotient of intervals has valid bounds. -/
theorem Valid.quotient (ha : a.Valid) (hb : b.Valid) : (a.quotient b).Valid := by
  obtain ⟨l, hal, hl, hah⟩ := ha.cases
  obtain ⟨m, hbl, hm, hbh⟩ := hb.cases
  -- The lower bound is finite, and below every quotient of upper bounds by lower ones.
  obtain ⟨n, hlow, hn, hless⟩ : ∃ n, (a.quotient b).low = .fin n ∧ 0 ≤ n ∧
      ∀ h, l < h → 0 < m → n < h / m := by
    show ∃ n, Bound.extDiv a.low b.high = .fin n ∧ _
    rw [hal]
    rcases hbh with hbh | ⟨k, hbh, hmk⟩ <;> rw [hbh]
    · exact ⟨0, rfl, le_rfl, fun h hlh hpos => div_pos (hl.trans_lt hlh) hpos⟩
    · have hk : 0 < k := hm.trans_lt hmk
      refine ⟨l / k, extDiv_fin_fin hk.ne', div_nonneg hl hk.le, fun h hlh hpos => ?_⟩
      rw [div_lt_div_iff₀ hk hpos]
      calc l * m ≤ l * k := mul_le_mul_of_nonneg_left hmk.le hl
        _ < h * k := mul_lt_mul_of_pos_right hlh hk
  refine valid_of_bounds hlow hn ?_
  show Bound.extDiv a.high b.low = _ ∨ ∃ j, Bound.extDiv a.high b.low = .fin j ∧ _
  rw [hbl]
  rcases hm.eq_or_lt with rfl | hpos
  · exact .inl (extDiv_zero _)
  · rcases hah with hah | ⟨h, hah, hlh⟩ <;> rw [hah]
    · exact .inl (extDiv_posInf_fin hm)
    · exact .inr ⟨h / m, extDiv_fin_fin hpos.ne', hless h hlh hpos⟩

/-! ## Closed intervals -/

/-- Whether an interval is valid and includes both its bounds. -/
structure IsClosed (iv : Interval Exact) : Prop where
  /-- The bounds are valid. -/
  valid : iv.Valid
  /-- The bounds are included. -/
  flags : iv.includesLow ∧ iv.includesHigh

/-- An interval lies in another one if its members do. -/
instance : HasSubset (Interval Exact) := ⟨fun a b => ∀ x, a.contains x → b.contains x⟩

/-- The members of a closed interval are what lies between its bounds. -/
theorem IsClosed.contains_iff (h : a.IsClosed) (x : Exact) :
    a.contains x ↔ a.low.le x ∧ x.le a.high := by
  obtain ⟨l, hlow, -⟩ := h.valid.cases
  rw [Interval.contains_iff h.valid, h.flags.1, h.flags.2, hlow, above_included,
    h.valid.high_positive.below_included]

/-- A closed interval contains its bounds. -/
theorem IsClosed.contains_bounds (h : a.IsClosed) : a.contains a.low ∧ a.contains a.high := by
  obtain ⟨l, hlow, -, hhigh⟩ := h.valid.cases
  have hll : a.low.le a.low := by simp [hlow, Exact.le]
  have hhh : a.high.le a.high := by
    rcases hhigh with hhigh | ⟨k, hhigh, -⟩ <;> simp [hhigh, Exact.le]
  have hlh : a.low.le a.high := by
    rcases hhigh with hhigh | ⟨k, hhigh, hlk⟩ <;> rw [hlow, hhigh]
    · rfl
    · exact decide_eq_true hlk.le
  exact ⟨(h.contains_iff _).2 ⟨hll, hlh⟩, (h.contains_iff _).2 ⟨hlh, hhh⟩⟩

/-- A closed interval lies in another one exactly if its bounds do. -/
theorem IsClosed.subset_iff (ha : a.IsClosed) (hb : b.IsClosed) :
    a ⊆ b ↔ b.low.le a.low ∧ a.high.le b.high := by
  constructor
  · intro h
    exact ⟨((hb.contains_iff _).1 (h _ ha.contains_bounds.1)).1,
      ((hb.contains_iff _).1 (h _ ha.contains_bounds.2)).2⟩
  · rintro ⟨hlow, hhigh⟩ x hx
    obtain ⟨hxl, hxh⟩ := (ha.contains_iff x).1 hx
    exact (hb.contains_iff x).2 ⟨Exact.le_trans hlow hxl, Exact.le_trans hxh hhigh⟩

theorem Yields.isKnown (h : Yields a b c op) : op.isKnown := by
  cases h <;> rfl

theorem Yields.isClosed (h : Yields a b c op) (ha : a.IsClosed) (hb : b.IsClosed) : c.IsClosed :=
  ⟨h.valid, h.closed ha.flags hb.flags⟩

/-- The bounds of a result on closed operands are results on members of the operands. -/
theorem Yields.exists_attained (h : Yields a b c op) (ha : a.IsClosed) (hb : b.IsClosed) :
    (∃ x y, a.contains x ∧ b.contains y ∧ apply op x y = .ok c.low) ∧
      ∃ x y, a.contains x ∧ b.contains y ∧ apply op x y = .ok c.high := by
  obtain ⟨l, hal, -⟩ := ha.valid.cases
  obtain ⟨m, hbl, -⟩ := hb.valid.cases
  obtain ⟨hlowA, hhighA⟩ := ha.contains_bounds
  obtain ⟨hlowB, hhighB⟩ := hb.contains_bounds
  cases h with
  | add h =>
    obtain ⟨-, rfl⟩ := add_eq_ok.1 h
    exact ⟨⟨_, _, hlowA, hlowB, rfl⟩, _, _, hhighA, hhighB, rfl⟩
  | sub h =>
    obtain ⟨-, rfl⟩ := sub_eq_ok.1 h
    -- Lower bounds are finite, so neither pair is a difference of infinities.
    refine ⟨⟨_, _, hlowA, hhighB, if_neg ?_⟩, _, _, hhighA, hlowB, if_neg ?_⟩
    · simp [hal]
    · simp [hbl]
  | div h =>
    obtain ⟨hzero, -, -, rfl⟩ := div_eq_ok.1 h
    refine ⟨⟨_, _, hlowA, hhighB, ?_⟩, _, _, hhighA, hlowB, ?_⟩
    · have hz : ¬ (a.low = .fin 0 ∧ b.high = .fin 0) := by
        rintro ⟨hza, hzb⟩
        exact hzero ⟨hza ▸ hlowA, hzb ▸ hhighB⟩
      rw [apply, if_neg hz, if_neg (by simp [hal])]
      rfl
    · have hz : ¬ (a.high = .fin 0 ∧ b.low = .fin 0) := by
        rintro ⟨hza, hzb⟩
        exact hzero ⟨hza ▸ hhighA, hzb ▸ hlowB⟩
      rw [apply, if_neg hz, if_neg (by simp [hbl])]
      rfl

end Interval

end ExprTyping
