import Mathlib.Algebra.Order.Ring.Nat
import Mathlib.Tactic.Ring
import ExprTyping.Binary64.Decimal

/-!
# Rounding and reading back

Rounding looks at a quotient only through its value: `nearest` is the same for `num / den` and for
any other way to write the same fraction. On the magnitudes of the format it is the identity.

- `nearest_congr`: equal fractions round to the same magnitude;
- `nearest_units`: a magnitude rounds to itself;
- `ofDecimal_mul_ten_pow`: a decimal may be written with more zeros at its end;
- `ofDecimal_shortest`: the shortest decimal of a magnitude reads back as that magnitude;
- `leading_bounds`: a decimal that reads back as a finite magnitude other than zero has a leading
  digit within the range of the format.
-/

namespace ExprTyping.Binary64

/-! ## Quotients -/

theorem roundDiv_mul_right (num den : Nat) {c : Nat} (hc : 0 < c) :
    roundDiv (num * c) (den * c) = roundDiv num den := by
  have hless (a b : Nat) : 2 * (a * c) < b * c ↔ 2 * a < b := by
    rw [← Nat.mul_assoc, Nat.mul_lt_mul_right hc]
  have hmore (a b : Nat) : b * c < 2 * (a * c) ↔ b < 2 * a := by
    rw [← Nat.mul_assoc, Nat.mul_lt_mul_right hc]
  unfold roundDiv
  simp only [Nat.mul_div_mul_right num den hc, Nat.mul_mod_mul_right, hless, hmore]

theorem roundDiv_one (n : Nat) : roundDiv n 1 = n := by
  simp [roundDiv, Nat.mod_one]

/-- Rounding sees a fraction only up to a common factor. -/
theorem nearest_mul_right (num den : Nat) {c : Nat} (hc : 0 < c) :
    nearest (num * c) (den * c) = nearest num den := by
  unfold nearest
  simp only [Nat.mul_div_mul_right num den hc, Nat.mul_right_comm den c, roundDiv_mul_right _ _ hc]

/-- Equal fractions round to the same magnitude. -/
theorem nearest_congr {num den num' den' : Nat} (hden : 0 < den) (hden' : 0 < den')
    (h : num * den' = num' * den) : nearest num den = nearest num' den' := by
  rw [← nearest_mul_right num den hden', ← nearest_mul_right num' den' hden, h,
    Nat.mul_comm den]

theorem nearest_zero (den : Nat) : nearest 0 den = 0 := by
  have h : roundDiv 0 den = 0 := by simp [roundDiv]
  simp [nearest, h]

/-- A multiple of the spacing at `shift` that has 53 binary digits there. -/
theorem nearest_scaled {m shift : Nat} (hlow : 2 ^ 52 ≤ m) (hhigh : m < 2 ^ 53) :
    nearest (m * 2 ^ shift) 1 = shift * 2 ^ 52 + m := by
  have hpos : 0 < 2 ^ shift := Nat.two_pow_pos shift
  have hlog : (m * 2 ^ shift).log2 = 52 + shift := by
    have hne : m * 2 ^ shift ≠ 0 := (Nat.mul_pos (by omega) hpos).ne'
    rw [Nat.log2_eq_iff hne, Nat.add_right_comm, Nat.pow_add, Nat.pow_add 2 (52 + 1)]
    exact ⟨Nat.mul_le_mul_right _ hlow, Nat.mul_lt_mul_of_pos_right hhigh hpos⟩
  have hround : roundDiv (m * 2 ^ shift) (1 * 2 ^ shift) = m := by
    rw [roundDiv_mul_right m 1 hpos, roundDiv_one]
  unfold nearest
  simp only [Nat.div_one, hlog, Nat.add_sub_cancel_left, Nat.pow_eq, hround]

/-- A number below the first doubling of the spacing counts its own units. -/
theorem nearest_small {n : Nat} (h : n < 2 ^ 53) : nearest n 1 = n := by
  have hlog : n.log2 - 52 = 0 := by
    by_cases hn : n = 0
    · rw [hn, Nat.log2_zero]
    · have := (Nat.log2_lt hn).2 h
      omega
  unfold nearest
  simp only [Nat.div_one, hlog, Nat.pow_eq, Nat.pow_zero, Nat.mul_one, Nat.zero_mul, Nat.zero_add,
    roundDiv_one]

/-- A magnitude rounds to itself. -/
theorem nearest_units (k : Nat) : nearest (units k) 1 = k := by
  by_cases hk : k < 2 ^ 52
  · have hunits : units k = k := if_pos hk
    rw [hunits, nearest_small (by omega)]
  · have hunits : units k = (2 ^ 52 + k % 2 ^ 52) * 2 ^ (k / 2 ^ 52 - 1) := if_neg hk
    have hmod : k % 2 ^ 52 < 2 ^ 52 := Nat.mod_lt _ (by decide)
    have hdiv : 1 ≤ k / 2 ^ 52 := by omega
    rw [hunits, nearest_scaled (by omega) (by omega)]
    omega

/-! ## Bounds -/

/-- What does not round to zero is at least half a unit. -/
theorem le_of_nearest_pos {num den : Nat} (h : 0 < nearest num den) : den ≤ 2 * num := by
  by_contra hlt
  have hdiv : num / den = 0 := Nat.div_eq_of_lt (by omega)
  have hmod : num % den = num := Nat.mod_eq_of_lt (by omega)
  have hround : roundDiv num den = 0 := by
    unfold roundDiv
    simp only [hdiv, hmod]
    rw [if_pos (by omega)]
  have hzero : nearest num den = 0 := by
    unfold nearest
    simp [hdiv, hround]
  omega

/-- What rounds to a finite magnitude is below 2²¹⁰⁰ units. -/
theorem lt_of_nearest_lt {num den b : Nat} (hden : 0 < den) (hb : 2100 ≤ b)
    (h : nearest num den < infinityOrd) : num < 2 ^ b * den := by
  by_contra hge
  have hdiv : 2 ^ b ≤ num / den := (Nat.le_div_iff_mul_le hden).2 (Nat.le_of_not_lt hge)
  have hne : num / den ≠ 0 := (Nat.lt_of_lt_of_le (Nat.two_pow_pos b) hdiv).ne'
  have hlog : b ≤ (num / den).log2 := (Nat.le_log2 hne).2 hdiv
  -- A shift of 2048 alone leads beyond the 2047 binades of the format.
  have hshift : 2048 * 2 ^ 52 ≤ ((num / den).log2 - 52) * 2 ^ 52 :=
    Nat.mul_le_mul_right _ (by omega)
  have hord : infinityOrd = 2047 * 2 ^ 52 := rfl
  have hle : ((num / den).log2 - 52) * 2 ^ 52 ≤ nearest num den := Nat.le_add_right _ _
  omega

/-! ## Decimals -/

theorem unitPlaces_eq : unitPlaces = 1074 := rfl

-- Kept closed, so that no power of this size is ever computed.
attribute [local irreducible] unitPlaces

theorem unitsPerOne_eq : unitsPerOne = 2 ^ unitPlaces := rfl

/-- A decimal as one fraction: a positive exponent scales the numerator and a negative one the
denominator. -/
theorem ofDecimal_eq (neg : Bool) (m : Nat) (x : Int) :
    ofDecimal neg m x =
      ofOrd neg (nearest (m * 10 ^ x.toNat * unitsPerOne) (10 ^ (-x).toNat)) := by
  cases x with
  | ofNat e =>
    have hzero : (-Int.ofNat e).toNat = 0 := Int.toNat_neg_natCast e
    rw [hzero, Nat.pow_zero]
    rfl
  | negSucc e =>
    have hzero : (Int.negSucc e).toNat = 0 := rfl
    rw [hzero, Nat.pow_zero, Nat.mul_one]
    rfl

/-- Zeros at the end of a decimal change nothing. -/
theorem ofDecimal_mul_ten_pow (neg : Bool) (m j : Nat) (x : Int) :
    ofDecimal neg (m * 10 ^ j) x = ofDecimal neg m (x + j) := by
  rw [ofDecimal_eq, ofDecimal_eq]
  -- Both sides have the same number of factors ten, since `y.toNat - (-y).toNat = y`.
  have hexp : j + x.toNat + (-(x + j)).toNat = (x + j).toNat + (-x).toNat := by omega
  have hcross (u : Nat) : m * 10 ^ j * 10 ^ x.toNat * u * 10 ^ (-(x + j)).toNat =
      m * 10 ^ (x + j).toNat * u * 10 ^ (-x).toNat := by
    calc m * 10 ^ j * 10 ^ x.toNat * u * 10 ^ (-(x + j)).toNat
        = m * u * 10 ^ (j + x.toNat + (-(x + j)).toNat) := by ring
      _ = m * 10 ^ (x + j).toNat * u * 10 ^ (-x).toNat := by
          rw [hexp]
          ring
  rw [nearest_congr (Nat.pow_pos (by decide)) (Nat.pow_pos (by decide))
    (hcross unitsPerOne)]

theorem ofDecimal_zero (neg : Bool) (x : Int) : ofDecimal neg 0 x = ofOrd neg 0 := by
  rw [ofDecimal_eq, Nat.zero_mul, Nat.zero_mul, nearest_zero]

/-- The exact decimal of a magnitude reads back. -/
theorem ofDecimal_exactDecimal (k : Nat) :
    ofDecimal false (exactDecimal k).digits (exactDecimal k).exponent = ofOrd false k := by
  have hcross : units k * 5 ^ unitPlaces * 10 ^ 0 * 2 ^ unitPlaces * 1 =
      units k * 10 ^ unitPlaces := by
    -- A unit is `5 ^ 1074 / 10 ^ 1074`.
    rw [Nat.pow_zero, Nat.mul_one, Nat.mul_one, Nat.mul_assoc, ← Nat.mul_pow]
  have hfive : (exactDecimal k).digits = units k * 5 ^ unitPlaces := by
    rw [exactDecimal, Nat.pow_eq]
  have hexp : (exactDecimal k).exponent = -(unitPlaces : Int) := rfl
  rw [ofDecimal_eq, hfive, hexp, Int.toNat_neg_natCast, Int.neg_neg, Int.toNat_natCast, unitsPerOne_eq,
    nearest_congr (Nat.pow_pos (by decide)) Nat.one_pos hcross, nearest_units]

/-- What a search with a fixed number of digits finds reads back: it tests both neighbours. -/
theorem ofDecimal_withDigits? {k n : Nat} {d : Decimal} (h : withDigits? k n = some d) :
    ofDecimal false d.digits d.exponent = ofOrd false k := by
  unfold withDigits? at h
  dsimp only at h
  -- Which two neighbours the search looks at does not matter.
  generalize leadingExponent (units k) unitsPerOne - n + 1 = x at h
  generalize gridBelow (units k) unitsPerOne x = grid at h
  obtain ⟨below, side⟩ := grid
  dsimp only at h
  cases hbelow : ofDecimal false below x == ofOrd false k <;>
    cases habove : ofDecimal false (below + 1) x == ofOrd false k <;> rw [hbelow, habove] at h
  · cases h
  · cases h
    exact eq_of_beq habove
  · cases h
    exact eq_of_beq hbelow
  · cases side with
    | lt =>
      cases h
      exact eq_of_beq hbelow
    | gt =>
      cases h
      exact eq_of_beq habove
    | eq =>
      cases h
      -- The even one of the two neighbours, and both read back.
      rcases Nat.mod_two_eq_zero_or_one below with heven | hodd
      · rw [heven]
        exact eq_of_beq hbelow
      · rw [hodd]
        exact eq_of_beq habove

/-- The shortest decimal of a magnitude reads back as that magnitude. -/
theorem ofDecimal_shortest (k : Nat) :
    ofDecimal false (shortest k).digits (shortest k).exponent = ofOrd false k := by
  unfold shortest
  cases hfind : (List.range 17).findSome? fun n => withDigits? k (n + 1) with
  | none => exact ofDecimal_exactDecimal k
  | some d =>
    obtain ⟨n, -, hn⟩ := List.exists_of_findSome?_eq_some hfind
    exact ofDecimal_withDigits? hn

/-! ## The leading digit -/

theorem eq_of_ofOrd_eq {a k : Nat} (hk : k < infinityOrd) (h : ofOrd false a = ofOrd false k) :
    a = k := by
  obtain ⟨-, hmin⟩ := Binary64.num.inj h
  have hval : min a infinityOrd = min k infinityOrd := congrArg Fin.val hmin
  omega

theorem lt_ten_pow_length (n : Nat) : n < 10 ^ (Nat.toDigits 10 n).length :=
  (Nat.length_toDigits_le_iff (by decide) Nat.length_toDigits_pos).1 (Nat.le_refl _)

theorem ten_pow_length_le {n : Nat} (hn : 0 < n) : 10 ^ ((Nat.toDigits 10 n).length - 1) ≤ n := by
  have hlen : 0 < (Nat.toDigits 10 n).length := Nat.length_toDigits_pos
  by_cases hone : (Nat.toDigits 10 n).length = 1
  · rw [hone]
    exact hn
  · by_contra hlt
    have := (Nat.length_toDigits_le_iff (by decide) (by omega)).2 (Nat.lt_of_not_le hlt)
    omega

/-- A decimal that does not round to zero has a leading digit at or above half a unit. -/
theorem lt_leading {m : Nat} {x : Int}
    (h : 0 < nearest (m * 10 ^ x.toNat * unitsPerOne) (10 ^ (-x).toNat)) :
    -1075 < x + (Nat.toDigits 10 m).length := by
  have hscale : 2 * unitsPerOne ≤ 10 ^ (unitPlaces + 1) := by
    rw [unitsPerOne_eq, Nat.mul_comm, ← Nat.pow_succ]
    exact Nat.pow_le_pow_left (by decide) _
  have hplaces := unitPlaces_eq
  generalize hlen : (Nat.toDigits 10 m).length = len
  have hlt : m < 10 ^ len := hlen ▸ lt_ten_pow_length m
  have hpow : 10 ^ (-x).toNat < 10 ^ (len + x.toNat + (unitPlaces + 1)) := by
    calc 10 ^ (-x).toNat ≤ 2 * (m * 10 ^ x.toNat * unitsPerOne) := le_of_nearest_pos h
      _ = m * (10 ^ x.toNat * (2 * unitsPerOne)) := by ring
      _ < 10 ^ len * (10 ^ x.toNat * (2 * unitsPerOne)) := by
          refine Nat.mul_lt_mul_of_pos_right hlt (Nat.mul_pos (Nat.pow_pos (by decide)) ?_)
          exact Nat.mul_pos (by decide) (Nat.two_pow_pos _)
      _ ≤ 10 ^ len * (10 ^ x.toNat * 10 ^ (unitPlaces + 1)) :=
          Nat.mul_le_mul_left _ (Nat.mul_le_mul_left _ hscale)
      _ = 10 ^ (len + x.toNat + (unitPlaces + 1)) := by rw [Nat.pow_add, Nat.pow_add]; ring
  -- One of `x.toNat` and `(-x).toNat` is zero, so the exponents compare as integers.
  have hexp := (Nat.pow_lt_pow_iff_right (by decide)).1 hpow
  omega

/-- A decimal that rounds to a finite magnitude has a leading digit below 2²¹⁰⁰ units. -/
theorem leading_le {m : Nat} {x : Int} (hpos : 0 < m)
    (h : nearest (m * 10 ^ x.toNat * unitsPerOne) (10 ^ (-x).toNat) < infinityOrd) :
    x + (Nat.toDigits 10 m).length ≤ 2100 := by
  generalize hlen : (Nat.toDigits 10 m).length = len
  have hge : 10 ^ (len - 1) ≤ m := hlen ▸ ten_pow_length_le hpos
  -- A variable in place of the exponent 2100, so that the power is not computed.
  obtain ⟨b, hb⟩ : ∃ b, b = 2100 := ⟨_, rfl⟩
  have hpow : 10 ^ (len - 1 + x.toNat) < 10 ^ (b + (-x).toNat) := by
    calc 10 ^ (len - 1 + x.toNat) = 10 ^ (len - 1) * 10 ^ x.toNat := Nat.pow_add _ _ _
      _ ≤ m * 10 ^ x.toNat := Nat.mul_le_mul_right _ hge
      _ ≤ m * 10 ^ x.toNat * unitsPerOne := Nat.le_mul_of_pos_right _ (Nat.two_pow_pos _)
      _ < 2 ^ b * 10 ^ (-x).toNat := lt_of_nearest_lt (Nat.pow_pos (by decide)) hb.ge h
      _ ≤ 10 ^ b * 10 ^ (-x).toNat :=
          Nat.mul_le_mul_right _ (Nat.pow_le_pow_left (by decide) _)
      _ = 10 ^ (b + (-x).toNat) := (Nat.pow_add _ _ _).symm
  have hexp := (Nat.pow_lt_pow_iff_right (by decide)).1 hpow
  omega

/-- A decimal that reads back as a finite magnitude other than zero has a leading digit within the
range of the format. -/
theorem leading_bounds {k m : Nat} {x : Int} (hk : 0 < k) (hfinite : k < infinityOrd)
    (h : ofDecimal false m x = ofOrd false k) :
    0 < m ∧ -1075 < x + (Nat.toDigits 10 m).length ∧ x + (Nat.toDigits 10 m).length ≤ 2100 := by
  rw [ofDecimal_eq] at h
  have hnearest := eq_of_ofOrd_eq hfinite h
  have hpos : 0 < m := by
    rcases Nat.eq_zero_or_pos m with rfl | hpos
    · rw [Nat.zero_mul, Nat.zero_mul, nearest_zero] at hnearest
      omega
    · exact hpos
  exact ⟨hpos, lt_leading (hnearest ▸ hk), leading_le hpos (hnearest ▸ hfinite)⟩

end ExprTyping.Binary64
