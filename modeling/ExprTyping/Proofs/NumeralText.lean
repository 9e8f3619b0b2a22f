import Mathlib.Data.List.Induction
import ExprTyping.Expr.Basic
import ExprTyping.Proofs.Rounding

/-!
# The text of numbers denotes them

A real literal is written as a numeral: digits, a fraction or an exponent or both. Whichever layout
is chosen, the numeral has the value of the digits that are laid out, and these are the shortest
decimal of the number without the zeros at its end.

- `Numeral.Written`: the texts of a numeral that show that it is a real one;
- `Numeral.denotes_layOut`: a layout writes a numeral with the value of its digits;
- `Numeral.denotes_magnitudeChars`: the text of a finite magnitude writes a numeral that has this
  magnitude.
-/

namespace ExprTyping

namespace Numeral

/-! ## Digits -/

theorem natOfDigits_append (ds es : List Char) :
    natOfDigits (ds ++ es) = 10 ^ es.length * natOfDigits ds + natOfDigits es := by
  change Nat.ofDigitChars 10 (ds ++ es) 0 = _
  rw [Nat.ofDigitChars_append, Nat.ofDigitChars_eq_ofDigitChars_zero]
  rfl

theorem natOfDigits_replicate_zero (n : Nat) : natOfDigits (List.replicate n '0') = 0 := by
  change Nat.ofDigitChars 10 (List.replicate n '0') 0 = 0
  rw [Nat.ofDigitChars_replicate_zero, Nat.mul_zero]

theorem natOfDigits_append_zeros (ds : List Char) (n : Nat) :
    natOfDigits (ds ++ List.replicate n '0') = natOfDigits ds * 10 ^ n := by
  rw [natOfDigits_append, natOfDigits_replicate_zero, List.length_replicate, Nat.add_zero,
    Nat.mul_comm]

theorem natOfDigits_zeros_append (n : Nat) (ds : List Char) :
    natOfDigits (List.replicate n '0' ++ ds) = natOfDigits ds := by
  rw [natOfDigits_append, natOfDigits_replicate_zero, Nat.mul_zero, Nat.zero_add]

theorem natOfDigits_toDigits (n : Nat) : natOfDigits (Nat.toDigits 10 n) = n :=
  Nat.ofDigitChars_ten_toDigits

/-- Below a hundred thousand, no digit of an exponent is left out: the digits in front of each one
denote less than ten thousand. -/
theorem exponentOfDigits_eq {ds : List Char} (h : natOfDigits ds < 100000) :
    exponentOfDigits ds = natOfDigits ds := by
  induction ds using List.reverseRecOn with
  | nil => rfl
  | append_singleton ds d ih =>
    have hsnoc : natOfDigits (ds ++ [d]) = 10 * natOfDigits ds + digitValue d := by
      simp [natOfDigits]
    rw [hsnoc] at h
    -- What stands in front of the last digit is a tenth of the whole, so the cap is not reached.
    have hinit : exponentOfDigits ds = natOfDigits ds := ih (by omega)
    have hsmall : exponentOfDigits ds < 10000 := by omega
    have hlast : exponentOfDigits (ds ++ [d]) = 10 * exponentOfDigits ds + digitValue d := by
      unfold exponentOfDigits at hsmall ⊢
      rw [List.foldl_append, List.foldl_cons, List.foldl_nil, if_pos hsmall]
    rw [hlast, hsnoc, hinit]

/-! ## Written numerals -/

/-- Whether a numeral is made of the digits 0 to 9, with at least one in front of the point. -/
structure IsPlain (n : Numeral) : Prop where
  whole_ne_nil : n.whole ≠ []
  whole : ∀ c ∈ n.whole, c.isDigit
  fraction : ∀ c ∈ n.fraction, c.isDigit
  exponent : ∀ c ∈ n.exponent, c.isDigit

/-- The sign of an exponent. -/
def signChar (neg : Bool) : Char :=
  if neg then '-' else '+'

/-- A numeral with a fraction, an exponent or both, and its text. -/
inductive Written : Numeral → List Char → Prop
  | fraction (whole fraction : List Char) :
      Written ⟨whole, fraction, false, []⟩ (whole ++ '.' :: fraction)
  | exponent (whole : List Char) (neg : Bool) {exponent : List Char} : exponent ≠ [] →
      Written ⟨whole, [], neg, exponent⟩ (whole ++ 'e' :: signChar neg :: exponent)
  | both (whole fraction : List Char) (neg : Bool) {exponent : List Char} : exponent ≠ [] →
      Written ⟨whole, fraction, neg, exponent⟩
        (whole ++ '.' :: (fraction ++ 'e' :: signChar neg :: exponent))

/-- The characters of a number as a real literal. -/
def realChars (cs : List Char) : List Char :=
  if Literal.showsReal cs then cs else cs ++ ['.', '0']

theorem showsReal_iff {cs : List Char} :
    Literal.showsReal cs ↔ ∃ c ∈ cs, c = '.' ∨ c = 'e' ∨ c = 'E' ∨ c = 'n' ∨ c = 'N' := by
  simp [Literal.showsReal, or_assoc]

theorem realChars_of_mem {cs : List Char} {c : Char} (hc : c ∈ cs) (hmark : c = '.' ∨ c = 'e') :
    realChars cs = cs := by
  refine if_pos (showsReal_iff.2 ⟨c, hc, ?_⟩)
  exact hmark.imp_right .inl

theorem realChars_of_digits {cs : List Char} (h : ∀ c ∈ cs, c.isDigit) :
    realChars cs = cs ++ ['.', '0'] := by
  refine if_neg fun hshow => ?_
  obtain ⟨c, hc, hmark⟩ := showsReal_iff.1 hshow
  have hdigit := h c hc
  rcases hmark with rfl | rfl | rfl | rfl | rfl <;> revert hdigit <;> decide

/-! ## Layouts -/

theorem isDigit_replicate (n : Nat) : ∀ c ∈ List.replicate n '0', c.isDigit := by
  intro c hc
  rw [List.eq_of_mem_replicate hc]
  decide

theorem isDigit_append {ds es : List Char} (hds : ∀ c ∈ ds, c.isDigit)
    (hes : ∀ c ∈ es, c.isDigit) : ∀ c ∈ ds ++ es, c.isDigit :=
  List.forall_mem_append.2 ⟨hds, hes⟩

/-- The digits behind the sign of an exponent. -/
theorem exists_exponentChars {e : Int} (h : e.natAbs < 100000) :
    ∃ ds, Binary64.exponentChars e = signChar (decide (e < 0)) :: ds ∧ ds ≠ [] ∧
      (∀ c ∈ ds, c.isDigit) ∧ exponentOfDigits ds = e.natAbs := by
  have hdigits : ∀ c ∈ Nat.toDigits 10 e.natAbs, c.isDigit := fun c hc =>
    Nat.isDigit_of_mem_toDigits (by decide) (by decide) hc
  have hsign : (if e < 0 then '-' else '+') = signChar (decide (e < 0)) := by
    simp [signChar]
  unfold Binary64.exponentChars
  dsimp only
  rw [hsign]
  split
  · -- A single digit gets a zero in front of it.
    refine ⟨_, rfl, List.cons_ne_nil _ _, isDigit_append (isDigit_replicate 1) hdigits, ?_⟩
    have hvalue := natOfDigits_zeros_append 1 (Nat.toDigits 10 e.natAbs)
    rw [natOfDigits_toDigits] at hvalue
    exact (exponentOfDigits_eq (hvalue.trans_lt h)).trans hvalue
  · refine ⟨_, rfl, Nat.toDigits_ne_nil, hdigits, ?_⟩
    have hvalue := natOfDigits_toDigits e.natAbs
    exact (exponentOfDigits_eq (hvalue.trans_lt h)).trans hvalue

/-- A numeral without an exponent. -/
theorem value_fraction (whole fraction : List Char) :
    value ⟨whole, fraction, false, []⟩ =
      Binary64.ofDecimal false (natOfDigits (whole ++ fraction)) (-fraction.length) := by
  simp [value, exponentOfDigits]

theorem value_exponent (whole fraction : List Char) {exponent : List Char} {e : Int}
    (h : exponentOfDigits exponent = e.natAbs) :
    value ⟨whole, fraction, decide (e < 0), exponent⟩ =
      Binary64.ofDecimal false (natOfDigits (whole ++ fraction)) (e - fraction.length) := by
  have hsize : (if decide (e < 0) then -(e.natAbs : Int) else e.natAbs) = e := by
    by_cases he : e < 0
    · rw [if_pos (by simpa using he)]
      omega
    · rw [if_neg (by simpa using he)]
      omega
  simp only [value, h, hsize]

/-- Whether a text is that of a real literal with a certain value. -/
def Denotes (cs : List Char) (x : Binary64) : Prop :=
  ∃ n : Numeral, n.IsPlain ∧ n.Written cs ∧ n.value = x

theorem denotes_fraction {whole fraction : List Char} (hne : whole ≠ [])
    (hwhole : ∀ c ∈ whole, c.isDigit) (hfraction : ∀ c ∈ fraction, c.isDigit) :
    Denotes (realChars (whole ++ '.' :: fraction))
      (Binary64.ofDecimal false (natOfDigits (whole ++ fraction)) (-fraction.length)) := by
  rw [realChars_of_mem (c := '.') (by simp) (.inl rfl)]
  exact ⟨_, ⟨hne, hwhole, hfraction, List.forall_mem_nil _⟩, .fraction whole fraction,
    value_fraction whole fraction⟩

/-- One digit in front of the point and an exponent. -/
theorem denotes_exponent {d : Char} {rest : List Char} {e : Int} (hd : d.isDigit)
    (hrest : ∀ c ∈ rest, c.isDigit) (he : e.natAbs < 100000) :
    Denotes (realChars (if rest = [] then d :: 'e' :: Binary64.exponentChars e
        else d :: '.' :: rest ++ 'e' :: Binary64.exponentChars e))
      (Binary64.ofDecimal false (natOfDigits (d :: rest)) (e - rest.length)) := by
  obtain ⟨es, hchars, hes, hesDigits, hvalue⟩ := exists_exponentChars he
  have hplain : IsPlain ⟨[d], rest, decide (e < 0), es⟩ :=
    ⟨List.cons_ne_nil _ _, List.forall_mem_singleton.2 hd, hrest, hesDigits⟩
  have hmark : 'e' ∈ if rest = [] then d :: 'e' :: Binary64.exponentChars e
      else d :: '.' :: rest ++ 'e' :: Binary64.exponentChars e := by
    split <;> simp
  rw [realChars_of_mem hmark (.inr rfl), hchars]
  refine ⟨_, hplain, ?_, value_exponent [d] rest hvalue⟩
  split
  · next h =>
    subst h
    exact .exponent [d] _ hes
  · exact .both [d] rest _ hes

theorem denotes_zeros_append {ds : List Char} (hdigits : ∀ c ∈ ds, c.isDigit) (z : Nat) :
    Denotes (realChars ('0' :: '.' :: List.replicate z '0' ++ ds))
      (Binary64.ofDecimal false (natOfDigits ds) (-(z + ds.length : Nat))) := by
  have hvalue : natOfDigits (List.replicate 1 '0' ++ (List.replicate z '0' ++ ds)) =
      natOfDigits ds := by
    rw [natOfDigits_zeros_append, natOfDigits_zeros_append]
  have hne : List.replicate 1 '0' ≠ [] := List.cons_ne_nil _ _
  have h := denotes_fraction hne (isDigit_replicate 1)
    (isDigit_append (isDigit_replicate z) hdigits)
  rw [hvalue, List.length_append, List.length_replicate] at h
  exact h

/-- A whole number gets a zero behind the point. -/
theorem denotes_append_zeros {ds : List Char} (hne : ds ≠ []) (hdigits : ∀ c ∈ ds, c.isDigit)
    (z : Nat) :
    Denotes (realChars (ds ++ List.replicate z '0'))
      (Binary64.ofDecimal false (natOfDigits ds) z) := by
  have hwhole := isDigit_append hdigits (isDigit_replicate z)
  have hvalue : natOfDigits (ds ++ List.replicate z '0' ++ List.replicate 1 '0') =
      natOfDigits ds * 10 ^ (z + 1) := by
    rw [natOfDigits_append_zeros, natOfDigits_append_zeros, Nat.mul_assoc, ← Nat.pow_add]
  have hexp : -((List.replicate 1 '0').length : Int) + (z + 1 : Nat) = z := by
    rw [List.length_replicate]
    omega
  have h := denotes_fraction (List.append_ne_nil_of_left_ne_nil hne _) hwhole (isDigit_replicate 1)
  rw [realChars_of_mem (c := '.') (by simp) (.inl rfl), hvalue, Binary64.ofDecimal_mul_ten_pow,
    hexp] at h
  rw [realChars_of_digits hwhole]
  exact h

theorem denotes_point {ds : List Char} (hne : ds ≠ []) (hdigits : ∀ c ∈ ds, c.isDigit) (w : Nat) :
    Denotes (realChars (ds.take (w + 1) ++ '.' :: ds.drop (w + 1)))
      (Binary64.ofDecimal false (natOfDigits ds) (-(ds.length - (w + 1) : Nat))) := by
  have htake : ∀ c ∈ ds.take (w + 1), c.isDigit := fun c hc =>
    hdigits c (List.mem_of_mem_take hc)
  have hdrop : ∀ c ∈ ds.drop (w + 1), c.isDigit := fun c hc =>
    hdigits c (List.mem_of_mem_drop hc)
  have h := denotes_fraction (by simp [hne]) htake hdrop
  rw [List.take_append_drop, List.length_drop] at h
  exact h

/-- A layout denotes the value of its digits, the first of which counts `10 ^ e`. -/
theorem denotes_layOut {ds : List Char} {e : Int} (hne : ds ≠ [])
    (hdigits : ∀ c ∈ ds, c.isDigit) (he : e.natAbs < 100000) :
    Denotes (realChars (Binary64.layOut ds e))
      (Binary64.ofDecimal false (natOfDigits ds) (e - ds.length + 1)) := by
  have hpos : 0 < ds.length := List.length_pos_iff.2 hne
  -- The four layouts: with an exponent, below one, whole, and with a point between the digits.
  unfold Binary64.layOut
  split
  · cases ds with
    | nil => exact absurd rfl hne
    | cons d rest =>
      obtain ⟨hd, hrest⟩ := List.forall_mem_cons.1 hdigits
      have hexp : e - (d :: rest).length + 1 = e - rest.length := by
        rw [List.length_cons]
        omega
      rw [hexp]
      have h := denotes_exponent hd hrest he
      cases rest with
      | nil => exact h
      | cons d' rest => exact h
  · split
    · have hexp : e - ds.length + 1 = -(e.natAbs - 1 + ds.length : Nat) := by omega
      rw [hexp]
      exact denotes_zeros_append hdigits (e.natAbs - 1)
    · dsimp only
      split
      · have hexp : e - ds.length + 1 = (e.natAbs + 1 - ds.length : Nat) := by omega
        rw [hexp]
        exact denotes_append_zeros hne hdigits (e.natAbs + 1 - ds.length)
      · have hexp : e - ds.length + 1 = -(ds.length - (e.natAbs + 1) : Nat) := by omega
        rw [hexp]
        exact denotes_point hne hdigits e.natAbs

/-! ## Magnitudes -/

/-- Only zeros are dropped. -/
theorem exists_append_zeros (ds : List Char) :
    ∃ z, ds = Binary64.dropTrailingZeros ds ++ List.replicate z '0' := by
  have hzeros : ∀ c ∈ ds.reverse.takeWhile (· == '0'), c = '0' := fun c hc =>
    eq_of_beq (List.all_eq_true.1 List.all_takeWhile c hc)
  -- The digits dropped are the run of zeros at the front of the reversed list.
  refine ⟨(ds.reverse.takeWhile (· == '0')).length, ?_⟩
  have hsplit := List.takeWhile_append_dropWhile (p := (· == '0')) (l := ds.reverse)
  rw [List.eq_replicate_of_mem hzeros] at hsplit
  have hreverse := congrArg List.reverse hsplit
  rw [List.reverse_append, List.reverse_replicate, List.reverse_reverse] at hreverse
  exact hreverse.symm

/-- The digits of a number without the zeros at their end. -/
theorem exists_toDigits_eq (n : Nat) :
    ∃ ds z, Binary64.dropTrailingZeros (Nat.toDigits 10 n) = ds ∧ (∀ c ∈ ds, c.isDigit) ∧
      (Nat.toDigits 10 n).length = ds.length + z ∧ natOfDigits ds * 10 ^ z = n := by
  obtain ⟨z, hz⟩ := exists_append_zeros (Nat.toDigits 10 n)
  refine ⟨_, z, rfl, fun c hc => ?_, ?_, ?_⟩
  · have hmem : c ∈ Nat.toDigits 10 n := by
      rw [hz]
      exact List.mem_append_left _ hc
    exact Nat.isDigit_of_mem_toDigits (by decide) (by decide) hmem
  · have hlength := congrArg List.length hz
    rw [List.length_append, List.length_replicate] at hlength
    exact hlength
  · rw [← natOfDigits_append_zeros, ← hz, natOfDigits_toDigits]

/-- The text of a finite magnitude denotes it. -/
theorem denotes_magnitudeChars {k : Nat} (hfinite : k < Binary64.infinityOrd) :
    Denotes (realChars (Binary64.magnitudeChars k)) (Binary64.ofOrd false k) := by
  unfold Binary64.magnitudeChars
  split
  · next hzero =>
    have hone : ['0'] ≠ [] := List.cons_ne_nil _ _
    have h := denotes_append_zeros hone (isDigit_replicate 1) 0
    have hvalue : natOfDigits ['0'] = 0 := rfl
    rw [hvalue, Binary64.ofDecimal_zero] at h
    rw [hzero]
    exact h
  · next hne =>
    dsimp only
    -- Nothing but reading back is needed of the shortest decimal.
    have hreads := Binary64.ofDecimal_shortest k
    generalize Binary64.shortest k = d at hreads ⊢
    obtain ⟨hpos, hlow, hhigh⟩ := Binary64.leading_bounds (Nat.pos_of_ne_zero hne) hfinite hreads
    obtain ⟨ds, z, hds, hdigits, hlength, hvalue⟩ := exists_toDigits_eq d.digits
    have hnonempty : ds ≠ [] := by
      rintro rfl
      have hzero : natOfDigits [] = 0 := rfl
      rw [hzero, Nat.zero_mul] at hvalue
      omega
    -- The digits laid out have the value of the shortest decimal.
    have hstripped : Binary64.ofDecimal false (natOfDigits ds) (d.exponent + z) =
        Binary64.ofOrd false k := by
      rw [← Binary64.ofDecimal_mul_ten_pow, hvalue, hreads]
    have hexp : d.exponent + (Nat.toDigits 10 d.digits).length - 1 - ds.length + 1 =
        d.exponent + z := by
      rw [hlength]
      omega
    have hsmall : (d.exponent + (Nat.toDigits 10 d.digits).length - 1).natAbs < 100000 := by
      omega
    have h := denotes_layOut hnonempty hdigits hsmall
    rw [hexp, hstripped] at h
    rw [hds]
    exact h

end Numeral

end ExprTyping
