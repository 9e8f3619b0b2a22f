import ExprTyping.Bound.Basic
import ExprTyping.Proofs.Rounding

/-!
# The two zeros

Zero is the one number that the format holds twice, once with each sign, and numerical comparison
takes both for equal. Comparisons look only at the signed ordinal that the zeros share. Sums and
differences of numerically equal operands are numerically equal again, and so are quotients, except
that a divisor of zero would give its sign to an infinity; the quotient of bounds is the positive
infinity there, whatever the sign.

- `Binary64.rank?`: the signed ordinal;
- `Binary64.eq_iff`: numerical equality through it;
- `Binary64.rank?_eq_iff`: only the two zeros share it;
- `Binary64.rank?_add`, `Binary64.rank?_sub`, `Binary64.rank?_extDiv`: arithmetic on it.
-/

namespace ExprTyping.Binary64

variable {x x' y y' : Binary64}

/-- The signed ordinal of a number, which the two zeros share. -/
def rank? : Binary64 → Option Int
  | .nan => none
  | .num s k => some (signedOrd s k)

/-! ## Comparison -/

theorem isNaN_congr (hx : x.rank? = x'.rank?) : x.isNaN = x'.isNaN := by
  cases x <;> cases x' <;> simp_all [rank?, isNaN]

theorem lt_congr (hx : x.rank? = x'.rank?) (hy : y.rank? = y'.rank?) : x.lt y = x'.lt y' := by
  cases x <;> cases x' <;> cases y <;> cases y' <;> simp_all [rank?, lt]

theorem le_congr (hx : x.rank? = x'.rank?) (hy : y.rank? = y'.rank?) : x.le y = x'.le y' := by
  cases x <;> cases x' <;> cases y <;> cases y' <;> simp_all [rank?, le]

/-- What is not a number has no signed ordinal either, but it equals nothing. -/
theorem eq_iff : x.eq y ↔ x.rank? = y.rank? ∧ x.isNaN = false := by
  cases x <;> cases y <;> simp [Binary64.eq, rank?, isNaN]

theorem eq_congr (hx : x.rank? = x'.rank?) (hy : y.rank? = y'.rank?) : x.eq y = x'.eq y' := by
  rw [Bool.eq_iff_iff, eq_iff, eq_iff, isNaN_congr hx, hx, hy]

theorem rank?_of_eq (h : x.eq y) : x.rank? = y.rank? :=
  (eq_iff.1 h).1

theorem eq_symm (h : x.eq y) : y.eq x := by
  obtain ⟨hrank, hnum⟩ := eq_iff.1 h
  exact eq_iff.2 ⟨hrank.symm, by rwa [← isNaN_congr hrank]⟩

theorem eq_trans {z : Binary64} (hxy : x.eq y) (hyz : y.eq z) : x.eq z := by
  obtain ⟨hrank, hnum⟩ := eq_iff.1 hxy
  exact eq_iff.2 ⟨hrank.trans (rank?_of_eq hyz), hnum⟩

/-! ## Arithmetic -/

theorem rank?_num_of_zero {s : Bool} {k : Fin (infinityOrd + 1)} (hk : k.val = 0) :
    (num s k).rank? = some 0 := by
  cases s <;> simp [rank?, signedOrd, hk]

@[simp] theorem rank?_ofOrd_zero (s : Bool) : (ofOrd s 0).rank? = some 0 :=
  rank?_num_of_zero (Nat.zero_min _)

theorem infinityOrd_ne_zero : infinityOrd ≠ 0 := by decide

theorem signedOrd_eq_iff {s t : Bool} {k l : Nat} :
    signedOrd s k = signedOrd t l ↔ k = l ∧ (s = t ∨ k = 0) := by
  cases s <;> cases t <;> simp only [signedOrd] <;> grind

/-- Only the two zeros share their signed ordinal with another number. -/
theorem rank?_eq_iff : x.rank? = y.rank? ↔
    (x = .nan ∧ y = .nan) ∨ ∃ s t k, x = .num s k ∧ y = .num t k ∧ (s = t ∨ k.val = 0) := by
  constructor
  · intro h
    cases x with
    | nan =>
      cases y with
      | nan => exact .inl ⟨rfl, rfl⟩
      | num t l => cases h
    | num s k =>
      cases y with
      | nan => cases h
      | num t l =>
        rw [rank?, rank?, Option.some.injEq, signedOrd_eq_iff, ← Fin.ext_iff] at h
        obtain ⟨rfl, hs⟩ := h
        exact .inr ⟨s, t, k, rfl, rfl, hs⟩
  · rintro (⟨rfl, rfl⟩ | ⟨s, t, k, rfl, rfl, hs⟩)
    · rfl
    · rw [rank?, rank?, signedOrd_eq_iff.2 ⟨rfl, hs⟩]

theorem signedUnits_congr {s t : Bool} {k : Nat} (h : s = t ∨ k = 0) :
    signedUnits s k = signedUnits t k := by
  rcases h with rfl | rfl
  · rfl
  · cases s <;> cases t <;> simp [signedUnits, units]

/-- An infinity is no zero, so its sign is determined. -/
theorem sign_eq_of_infinite {s t : Bool} {k : Nat} (h : s = t ∨ k = 0) (hk : k = infinityOrd) :
    s = t :=
  h.resolve_right fun hzero => infinityOrd_ne_zero (hk.symm.trans hzero)

theorem rank?_neg (hx : x.rank? = x'.rank?) : x.neg.rank? = x'.neg.rank? := by
  obtain ⟨rfl, rfl⟩ | ⟨s, s', k, rfl, rfl, hs⟩ := rank?_eq_iff.1 hx
  · rfl
  · exact rank?_eq_iff.2 (.inr ⟨!s, !s', k, rfl, rfl, by simpa using hs⟩)

/-- Sums of numerically equal terms are numerically equal, or neither is a number. -/
theorem rank?_add (hx : x.rank? = x'.rank?) (hy : y.rank? = y'.rank?) :
    (x.add y).rank? = (x'.add y').rank? := by
  obtain ⟨rfl, rfl⟩ | ⟨s, s', k, rfl, rfl, hs⟩ := rank?_eq_iff.1 hx
  · rfl
  obtain ⟨rfl, rfl⟩ | ⟨t, t', l, rfl, rfl, ht⟩ := rank?_eq_iff.1 hy
  · rfl
  by_cases hk : k.val = infinityOrd
  · obtain rfl := sign_eq_of_infinite hs hk
    by_cases hl : l.val = infinityOrd
    · obtain rfl := sign_eq_of_infinite ht hl
      rfl
    · simp [add, hk, hl]
  · by_cases hl : l.val = infinityOrd
    · obtain rfl := sign_eq_of_infinite ht hl
      simp [add, hk, hl]
    · -- Finite terms have the same exact sum; only the sign of a zero sum may differ.
      simp only [add, hk, hl, if_false, signedUnits_congr hs, signedUnits_congr ht]
      split <;> simp

theorem rank?_sub (hx : x.rank? = x'.rank?) (hy : y.rank? = y'.rank?) :
    (x.sub y).rank? = (x'.sub y').rank? :=
  rank?_add hx (rank?_neg hy)

/-- A zero over a number other than zero is a zero. -/
theorem rank?_div_of_zero {s t : Bool} {k l : Fin (infinityOrd + 1)} (hk : k.val = 0)
    (hl : l.val ≠ 0) : ((num s k).div (num t l)).rank? = some 0 := by
  have hfinite : 0 ≠ infinityOrd := infinityOrd_ne_zero.symm
  by_cases hinf : l.val = infinityOrd
  · simp [div, hk, hfinite, hinf]
  · simp [div, hk, hfinite, hinf, hl, ofQuotient, units, nearest_zero]

/-- Quotients of numerically equal bounds are numerically equal, or neither is a number. -/
theorem rank?_extDiv (hx : x.rank? = x'.rank?) (hy : y.rank? = y'.rank?) :
    (Bound.extDiv x y).rank? = (Bound.extDiv x' y').rank? := by
  have hzero : Bound.eq y (Bound.zero : Binary64) = Bound.eq y' Bound.zero := eq_congr hy rfl
  rw [Bound.extDiv, Bound.extDiv, hzero]
  split
  · rfl
  · next hne =>
    obtain ⟨rfl, rfl⟩ | ⟨s, s', k, rfl, rfl, hs⟩ := rank?_eq_iff.1 hx
    · rfl
    obtain ⟨rfl, rfl⟩ | ⟨t, t', l, rfl, rfl, ht⟩ := rank?_eq_iff.1 hy
    · rfl
    -- The divisor is no zero here, so it is identical on both sides.
    have hl : l.val ≠ 0 := fun hl =>
      hne (eq_iff.2 ⟨(rank?_num_of_zero hl).trans (rank?_ofOrd_zero false).symm, rfl⟩)
    obtain rfl : t = t' := ht.resolve_right hl
    rcases hs with rfl | hk
    · rfl
    · exact (rank?_div_of_zero hk hl).trans (rank?_div_of_zero hk hl).symm

end ExprTyping.Binary64
