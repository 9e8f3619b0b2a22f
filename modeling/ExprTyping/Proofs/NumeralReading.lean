import ExprTyping.Proofs.NumeralText
import ExprTyping.Proofs.Scanning

/-!
# Reading numerals

A numeral is read in runs of digits: those in front of the point, those behind it and those of the
exponent. Each run ends at the first glyph that is no digit.

- `reads_integer`: digits alone give an integer, if it fits 64 bits;
- `reads_real`: the text of a numeral with a fraction or an exponent gives its value, if that is
  finite.
-/

namespace ExprTyping

open Cursor

/-! ## Digits -/

theorem isDigit_cases {c : Char} (h : c.isDigit) :
    c ∈ ['0', '1', '2', '3', '4', '5', '6', '7', '8', '9'] := by
  have hbounds : 48 ≤ c.toNat ∧ c.toNat < 58 := by
    simp only [Char.isDigit, Bool.and_eq_true, decide_eq_true_eq, UInt32.le_iff_toNat_le] at h
    exact ⟨h.1, Nat.lt_succ_of_le h.2⟩
  have hall : ∀ n < 58, 48 ≤ n →
      Char.ofNat n ∈ ['0', '1', '2', '3', '4', '5', '6', '7', '8', '9'] := by
    decide
  rw [← Char.ofNat_toNat c]
  exact hall _ hbounds.2 hbounds.1

theorem forall_isDigit {q : Char → Bool}
    (h : ['0', '1', '2', '3', '4', '5', '6', '7', '8', '9'].all q) {c : Char} (hc : c.isDigit) :
    q c :=
  List.all_eq_true.1 h c (isDigit_cases hc)

/-- What makes a digit start or continue a numeral and nothing else. -/
structure IsNumeric (c : Char) : Prop where
  withEquals : withEquals? c = none
  alone : alone? c = none
  decimal : Text.isDecimalDigit c
  continues : continuesNumber (.char c)
  not_point : c ≠ '.'
  not_blank : isSeparator (.char c) = false
  not_comment : c ≠ '#'

theorem isNumeric_of_isDigit {c : Char} (h : c.isDigit) : IsNumeric c := by
  have hall : ∀ c ∈ ['0', '1', '2', '3', '4', '5', '6', '7', '8', '9'], IsNumeric c := by
    simp only [List.forall_mem_cons]
    refine ⟨?_, ?_, ?_, ?_, ?_, ?_, ?_, ?_, ?_, ?_, nofun⟩ <;>
      exact ⟨rfl, rfl, by decide, by decide, by decide, by decide, by decide⟩
  exact hall c (isDigit_cases h)

/-- Whether no numeral goes on with this text. -/
def Stops (rest : Text) : Prop :=
  ∀ g t, rest = g :: t → continuesNumber g = false

theorem stops_cons {g : Glyph} (h : continuesNumber g = false) (t : Text) : Stops (g :: t) := by
  intro g' t' heq
  cases heq
  exact h

theorem takeRun_digits {ds : List Char} (hds : ∀ c ∈ ds, c.isDigit) {rest : Text}
    (hstop : Stops rest) (p : Pos) :
    takeRun continuesNumber ⟨Text.ofChars ds ++ rest, p⟩ =
      (ds, ⟨rest, p.after (Text.ofChars ds)⟩) := by
  have hrun := forall_ofChars fun c hc => (isNumeric_of_isDigit (hds c hc)).continues
  rw [takeRun_append hrun hstop, toChars_ofChars]

/-! ## Mantissas and exponents -/

section Parts

variable {first : Char} {more : List Char} {rest : Text}

theorem scanMantissa_whole (hfirst : first.isDigit) (hmore : ∀ c ∈ more, c.isDigit)
    (hstop : Stops rest) (hpoint : ahead rest ≠ '.') (p : Pos) :
    scanMantissa first ⟨Text.ofChars more ++ rest, p⟩ =
      (⟨first :: more, false, []⟩, ⟨rest, p.after (Text.ofChars more)⟩) := by
  unfold scanMantissa
  rw [if_neg (isNumeric_of_isDigit hfirst).not_point, takeRun_digits hmore hstop]
  exact if_neg hpoint

theorem scanMantissa_point {fraction : List Char} (hfirst : first.isDigit)
    (hmore : ∀ c ∈ more, c.isDigit) (hfraction : ∀ c ∈ fraction, c.isDigit) (hstop : Stops rest)
    (p : Pos) :
    ∃ behind, scanMantissa first
        ⟨Text.ofChars more ++ .char '.' :: (Text.ofChars fraction ++ rest), p⟩ =
      (⟨first :: more, true, fraction⟩, ⟨rest, behind⟩) := by
  have hdot : Stops (.char '.' :: (Text.ofChars fraction ++ rest)) := stops_cons (by decide) _
  unfold scanMantissa
  rw [if_neg (isNumeric_of_isDigit hfirst).not_point, takeRun_digits hmore hdot]
  dsimp only
  rw [if_pos (by rfl), drop1]
  dsimp only
  rw [takeRun_digits hfraction hstop]
  exact ⟨_, rfl⟩

theorem scanExponent_absent (h : isExponentMark (ahead rest) = false) (p : Pos) :
    scanExponent ⟨rest, p⟩ = (.absent, ⟨rest, p⟩) := by
  unfold scanExponent
  rw [if_neg (by simp [h])]

theorem scanExponent_present (neg : Bool) {ds : List Char} (hne : ds ≠ [])
    (hds : ∀ c ∈ ds, c.isDigit) (hstop : Stops rest) (p : Pos) :
    ∃ behind, scanExponent
        ⟨.char 'e' :: .char (Numeral.signChar neg) :: (Text.ofChars ds ++ rest), p⟩ =
      (.present neg ds, ⟨rest, behind⟩) := by
  have hsign (t : Text) (q : Pos) : scanSign ⟨.char (Numeral.signChar neg) :: t, q⟩ =
      ([Numeral.signChar neg], ⟨t, q.advance (.char (Numeral.signChar neg))⟩) := by
    cases neg <;> rfl
  have hneg : ([Numeral.signChar neg] == ['-']) = neg := by
    cases neg <;> rfl
  have hnonempty : ¬ ds.isEmpty := by
    rwa [List.isEmpty_iff]
  unfold scanExponent
  rw [if_pos (by rfl), drop1]
  dsimp only
  rw [hsign]
  dsimp only
  rw [takeRun_digits hds hstop]
  dsimp only
  rw [if_neg hnonempty, hneg]
  exact ⟨_, rfl⟩

end Parts

/-! ## Numerals -/

theorem scanWord_digit {first : Char} (h : first.isDigit) (t : Text) (p : Pos) :
    scanWord first ⟨t, p⟩ = scanNumber first ⟨t, p⟩ := by
  have hnumeric := isNumeric_of_isDigit h
  unfold scanWord
  rw [hnumeric.withEquals, hnumeric.alone]
  simp [hnumeric.decimal]

/-- What a numeral is read as, from what its parts are read as. -/
theorem scanNumber_of_parts {first : Char} (hfirst : first.isDigit) {c c₁ behind : Cursor}
    {m : Mantissa} {e : Exponent} (hmantissa : scanMantissa first c = (m, c₁))
    (hexponent : scanExponent c₁ = (e, behind)) :
    scanNumber first c = match numberTok true m e with
      | .ok tok => (.token ⟨tok, c.pos⟩, behind)
      | .error error => (.fault ⟨error, behind.pos⟩, behind) := by
  unfold scanNumber
  rw [hmantissa]
  dsimp only
  rw [hexponent]
  dsimp only
  have hplain : (decide (first = '.') || first.isDigit) = true := by
    rw [hfirst, Bool.or_true]
  cases htok : numberTok true m e with
  | ok tok => rw [hplain, htok]
  | error error => rw [hplain, htok]

/-- The token of a numeral from what its parts are read as. -/
theorem scanNumber_eq {first : Char} (hfirst : first.isDigit) {c c₁ behind : Cursor} {m : Mantissa}
    {e : Exponent} {tok : Tok} (hmantissa : scanMantissa first c = (m, c₁))
    (hexponent : scanExponent c₁ = (e, behind)) (htok : numberTok true m e = .ok tok) :
    scanNumber first c = (.token ⟨tok, c.pos⟩, behind) := by
  rw [scanNumber_of_parts hfirst hmantissa hexponent, htok]

theorem reads_digit {first : Char} (hfirst : first.isDigit) {t : Text} {tok : Tok}
    (h : ∀ (tail : Text) (p : Pos), Ends tail → ∃ behind,
      scanNumber first ⟨t ++ tail, p⟩ = (.token ⟨tok, p⟩, ⟨tail, behind⟩)) :
    Reads (.char first :: t) [tok] := by
  have hnumeric := isNumeric_of_isDigit hfirst
  refine Reads.single hnumeric.not_blank (fun hc => hnumeric.not_comment (Glyph.char.inj hc)) ?_
  intro tail p htail
  change ∃ behind, scanWord first ⟨t ++ tail, p⟩ = _
  rw [scanWord_digit hfirst]
  exact h tail p htail

theorem Ends.stopsNumber {tail : Text} (h : Ends tail) :
    Stops tail ∧ ahead tail ≠ '.' ∧ isExponentMark (ahead tail) = false := by
  refine ⟨h.stops (by decide), ?_⟩
  rcases h with rfl | ⟨c, hc, t, rfl⟩
  · exact ⟨by decide, by decide⟩
  · have hall : delimiters.all fun c =>
        aheadOf (.char c) != '.' && !isExponentMark (aheadOf (.char c)) := by
      decide
    simpa [ahead] using List.all_eq_true.1 hall c hc

/-- Digits alone give an integer. -/
theorem reads_integer {ds : List Char} (hne : ds ≠ []) (hds : ∀ c ∈ ds, c.isDigit)
    (hrange : Numeral.natOfDigits ds < 2 ^ 63) :
    Reads (Text.ofChars ds) [.integer (Int64.ofNat (Numeral.natOfDigits ds))] := by
  cases ds with
  | nil => exact absurd rfl hne
  | cons first more =>
    obtain ⟨hfirst, hmore⟩ := List.forall_mem_cons.1 hds
    refine reads_digit hfirst fun tail p htail => ?_
    obtain ⟨hstop, hpoint, hmark⟩ := htail.stopsNumber
    exact ⟨_, scanNumber_eq hfirst (scanMantissa_whole hfirst hmore hstop hpoint p)
      (scanExponent_absent hmark _) (if_pos hrange)⟩

section Reals

variable {first : Char} {more fraction exponent : List Char} {tok : Tok} (hfirst : first.isDigit)
  (hmore : ∀ c ∈ more, c.isDigit)

include hfirst hmore

theorem reads_fraction (hfraction : ∀ c ∈ fraction, c.isDigit)
    (htok : realTok ⟨first :: more, fraction, false, []⟩ = .ok tok) :
    Reads (Text.ofChars (first :: more ++ '.' :: fraction)) [tok] := by
  refine reads_digit hfirst fun tail p htail => ?_
  obtain ⟨hstop, -, habsent⟩ := htail.stopsNumber
  obtain ⟨behind, hmantissa⟩ := scanMantissa_point hfirst hmore hfraction hstop p
  have htext : Text.ofChars (more ++ '.' :: fraction) ++ tail =
      Text.ofChars more ++ .char '.' :: (Text.ofChars fraction ++ tail) := by
    simp [Text.ofChars]
  rw [← htext] at hmantissa
  exact ⟨behind, scanNumber_eq hfirst hmantissa (scanExponent_absent habsent _) htok⟩

theorem reads_exponent (neg : Bool) (hne : exponent ≠ []) (hexponent : ∀ c ∈ exponent, c.isDigit)
    (htok : realTok ⟨first :: more, [], neg, exponent⟩ = .ok tok) :
    Reads (Text.ofChars (first :: more ++ 'e' :: Numeral.signChar neg :: exponent)) [tok] := by
  refine reads_digit hfirst fun tail p htail => ?_
  obtain ⟨hstop, -, -⟩ := htail.stopsNumber
  have htext : Text.ofChars (more ++ 'e' :: Numeral.signChar neg :: exponent) ++ tail =
      Text.ofChars more ++
        .char 'e' :: .char (Numeral.signChar neg) :: (Text.ofChars exponent ++ tail) := by
    simp [Text.ofChars]
  -- The mark of the exponent ends the run of digits in front of it, and it is no point.
  have hahead (t : Text) : ahead (.char 'e' :: t) ≠ '.' := by
    change aheadOf (.char 'e') ≠ '.'
    decide
  have hmark := stops_cons (g := .char 'e') (by decide)
    (.char (Numeral.signChar neg) :: (Text.ofChars exponent ++ tail))
  have hmantissa := scanMantissa_whole hfirst hmore hmark (hahead _) p
  rw [← htext] at hmantissa
  obtain ⟨behind, hpresent⟩ := scanExponent_present neg hne hexponent hstop
    (p.after (Text.ofChars more))
  exact ⟨behind, scanNumber_eq hfirst hmantissa hpresent htok⟩

theorem reads_fraction_exponent (hfraction : ∀ c ∈ fraction, c.isDigit) (neg : Bool)
    (hne : exponent ≠ []) (hexponent : ∀ c ∈ exponent, c.isDigit)
    (htok : realTok ⟨first :: more, fraction, neg, exponent⟩ = .ok tok) :
    Reads (Text.ofChars
      (first :: more ++ '.' :: (fraction ++ 'e' :: Numeral.signChar neg :: exponent))) [tok] := by
  refine reads_digit hfirst fun tail p htail => ?_
  obtain ⟨hstop, -, -⟩ := htail.stopsNumber
  have htext :
      Text.ofChars (more ++ '.' :: (fraction ++ 'e' :: Numeral.signChar neg :: exponent)) ++ tail =
      Text.ofChars more ++ .char '.' :: (Text.ofChars fraction ++
        .char 'e' :: .char (Numeral.signChar neg) :: (Text.ofChars exponent ++ tail)) := by
    simp [Text.ofChars]
  have hmark := stops_cons (g := .char 'e') (by decide)
    (.char (Numeral.signChar neg) :: (Text.ofChars exponent ++ tail))
  obtain ⟨q, hmantissa⟩ := scanMantissa_point hfirst hmore hfraction hmark p
  rw [← htext] at hmantissa
  obtain ⟨behind, hpresent⟩ := scanExponent_present neg hne hexponent hstop q
  exact ⟨behind, scanNumber_eq hfirst hmantissa hpresent htok⟩

end Reals

/-- The text of a numeral with a fraction or an exponent gives its value. -/
theorem reads_real {n : Numeral} {cs : List Char} (hplain : n.IsPlain) (hwritten : n.Written cs)
    (hfinite : n.value.isInfinite = false) : Reads (Text.ofChars cs) [.real n.value] := by
  have htok : realTok n = .ok (.real n.value) := if_neg (by simp [hfinite])
  obtain ⟨hne, hwhole, hfraction, hexponent⟩ := hplain
  obtain ⟨first, more, hcons⟩ := List.exists_cons_of_ne_nil hne
  rw [hcons] at hwhole
  obtain ⟨hfirst, hmore⟩ := List.forall_mem_cons.1 hwhole
  cases hwritten with
  | fraction whole fraction =>
    subst hcons
    exact reads_fraction hfirst hmore hfraction htok
  | exponent whole neg hdigits =>
    subst hcons
    exact reads_exponent hfirst hmore neg hdigits hexponent htok
  | both whole fraction neg hdigits =>
    subst hcons
    exact reads_fraction_exponent hfirst hmore hfraction neg hdigits hexponent htok

end ExprTyping
