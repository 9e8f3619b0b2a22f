import ExprTyping.Diagnostic
import ExprTyping.Proofs.Printing

/-!
# The text of a type is an annotation for it

Types are printed by one piece of code and annotations are read by another, which goes through the
words of expressions. The bounds of an interval are the hard part: they are printed as whole
numbers, as decimals or with an exponent, and a word of each kind has to lead back to the bound.

- `Numeral.digits_of_denotes`: a number printed as digits alone is a whole number;
- `reads_renderBound`: the words of a printed bound, and that they are read as this bound;
- `TypeText.Accepts` and `TypeText.Yields`: what a reader makes of certain words, and what is true
  of everything it returns;
- `ofText_render` and `wellFormed_of_ofText`: well-formed types are read back from their text, and
  only well-formed types are ever read.
-/

namespace ExprTyping

/-! ## Numbers printed as digits alone -/

namespace Numeral

theorem digitValue_le {c : Char} (h : c.isDigit) : digitValue c ≤ 9 :=
  of_decide_eq_true (forall_isDigit (q := fun c => digitValue c ≤ 9) (by decide) h)

theorem natOfDigits_lt {ds : List Char} (h : ∀ c ∈ ds, c.isDigit) :
    natOfDigits ds < 10 ^ ds.length := by
  induction ds with
  | nil => decide
  | cons c ds ih =>
    obtain ⟨hc, hds⟩ := List.forall_mem_cons.1 h
    have hcons : natOfDigits (c :: ds) = 10 ^ ds.length * digitValue c + natOfDigits ds := by
      have happend := natOfDigits_append [c] ds
      simpa [natOfDigits] using happend
    have hfirst := Nat.mul_le_mul_left (10 ^ ds.length) (digitValue_le hc)
    have hrest := ih hds
    rw [hcons, List.length_cons, Nat.pow_succ]
    omega

/-- A numeral is written with the letter of an exponent, or with a point and no exponent. -/
theorem Written.cases_exponent {n : Numeral} {cs : List Char} (h : n.Written cs) :
    'e' ∈ cs ∨ cs = n.whole ++ '.' :: n.fraction ∧ n = ⟨n.whole, n.fraction, false, []⟩ := by
  cases h with
  | fraction whole fraction => exact .inr ⟨rfl, rfl⟩
  | exponent whole neg hne => exact .inl (by simp)
  | both whole fraction neg hne => exact .inl (by simp)

/-- A number whose text shows no point and no exponent is the whole number that its digits
denote. -/
theorem digits_of_denotes {cs : List Char} {x : Binary64} (hshow : ¬ Literal.showsReal cs)
    (h : Denotes (realChars cs) x) :
    cs ≠ [] ∧ (∀ c ∈ cs, c.isDigit) ∧ x = Binary64.ofDecimal false (natOfDigits cs) 0 := by
  have hmark : ∀ c ∈ cs, c ≠ '.' ∧ c ≠ 'e' := by
    intro c hc
    constructor
    · rintro rfl
      exact hshow (showsReal_iff.2 ⟨_, hc, .inl rfl⟩)
    · rintro rfl
      exact hshow (showsReal_iff.2 ⟨_, hc, .inr (.inl rfl)⟩)
  obtain ⟨n, hplain, hwritten, hvalue⟩ := h
  rw [realChars, if_neg hshow] at hwritten
  rcases hwritten.cases_exponent with he | ⟨htext, hn⟩
  · rw [List.mem_append] at he
    rcases he with he | he
    · exact absurd rfl (hmark _ he).2
    · exact absurd he (by decide)
  · -- The point that was added is the only one, so the digits in front of it are the text.
    obtain ⟨hwhole, -, hfraction⟩ := (List.append_cons_inj_of_notMem
      (fun hpoint => (hmark _ hpoint).1 rfl) (by decide)).1 htext
    refine ⟨hwhole ▸ hplain.whole_ne_nil, hwhole ▸ hplain.whole, ?_⟩
    have hten : natOfDigits (cs ++ ['0']) = natOfDigits cs * 10 ^ 1 := natOfDigits_append_zeros cs 1
    rw [← hvalue, hn, ← hwhole, ← hfraction, value_fraction, hten, Binary64.ofDecimal_mul_ten_pow]
    rfl

/-- A layout without a point and without an exponent has at most six digits. -/
theorem length_layOut_le (ds : List Char) (e : Int) :
    Literal.showsReal (Binary64.layOut ds e) ∨ (Binary64.layOut ds e).length ≤ 6 := by
  unfold Binary64.layOut
  split
  · split
    · exact .inr (by simp)
    · exact .inl (showsReal_iff.2 ⟨'e', by simp, by simp⟩)
    · exact .inl (showsReal_iff.2 ⟨'e', by simp, by simp⟩)
  · next hplain =>
    simp only [Bool.or_eq_true, decide_eq_true_eq, not_or] at hplain
    split
    · exact .inl (showsReal_iff.2 ⟨'.', by simp, by simp⟩)
    · dsimp only
      split
      · refine .inr ?_
        rw [List.length_append, List.length_replicate]
        omega
      · exact .inl (showsReal_iff.2 ⟨'.', by simp, by simp⟩)

theorem length_magnitudeChars_le {k : Nat}
    (h : ¬ Literal.showsReal (Binary64.magnitudeChars k)) :
    (Binary64.magnitudeChars k).length ≤ 6 := by
  unfold Binary64.magnitudeChars at h ⊢
  split at h
  · next hzero => simp [hzero]
  · next hzero =>
    rw [if_neg hzero]
    exact (length_layOut_le _ _).resolve_left h

end Numeral

theorem Binary64.ofInt_natCast (n : Nat) : Binary64.ofInt n = Binary64.ofDecimal false n 0 := by
  have hneg : decide ((n : Int) < 0) = false := by simp
  have hdigits : n * Nat.pow 10 0 = n := Nat.mul_one n
  change ofQuotient (decide ((n : Int) < 0)) (n * unitsPerOne) 1 =
    ofQuotient false (n * Nat.pow 10 0 * unitsPerOne) 1
  rw [hneg, hdigits]

/-! ## Readers of annotations -/

namespace TypeText

variable {α γ : Type} {p : Parse α} {f : α → Parse γ} {P : α → Prop} {Q : γ → Prop}
  {u v : List Tok}

/-- Whether a reader takes in the words `toks`, wherever they stand and whatever follows them, and
returns something with a property. -/
def Accepts (p : Parse α) (toks : List Tok) (P : α → Prop) : Prop :=
  ∀ (ts : List Token) (rest : List Item), ts.map Token.tok = toks →
    ∃ a, p (ts.map .token ++ rest) = .ok (a, rest) ∧ P a

/-- Whether everything that a reader returns has a property. -/
def Yields (p : Parse α) (P : α → Prop) : Prop :=
  ∀ items a rest, p items = .ok (a, rest) → P a

theorem bind_eq (p : Parse α) (f : α → Parse γ) (items : List Item) :
    (p >>= f) items = match p items with
      | .ok (a, rest) => f a rest
      | .error e => .error e := by
  change StateT.bind p f items = _
  unfold StateT.bind
  cases p items <;> rfl

theorem Accepts.bind (hp : Accepts p u P) (hf : ∀ a, P a → Accepts (f a) v Q) :
    Accepts (p >>= f) (u ++ v) Q := by
  intro ts rest hts
  obtain ⟨ts₁, ts₂, rfl, h₁, h₂⟩ := List.map_eq_append_iff.1 hts
  obtain ⟨a, ha, hP⟩ := hp ts₁ (ts₂.map .token ++ rest) h₁
  obtain ⟨b, hb, hQ⟩ := hf a hP ts₂ rest h₂
  refine ⟨b, ?_, hQ⟩
  rw [List.map_append, List.append_assoc, bind_eq, ha]
  exact hb

theorem Yields.bind (hp : Yields p P) (hf : ∀ a, P a → Yields (f a) Q) : Yields (p >>= f) Q := by
  intro items b rest h
  rw [bind_eq] at h
  split at h
  · next a between ha => exact hf a (hp _ _ _ ha) _ _ _ h
  · cases h

theorem accepts_pure {a : α} (h : P a) : Accepts (pure a) [] P := by
  intro ts rest hts
  rw [List.map_eq_nil_iff] at hts
  subst hts
  exact ⟨a, rfl, h⟩

theorem yields_pure {a : α} (h : P a) : Yields (pure a) P := by
  intro items b rest hb
  cases hb
  exact h

theorem yields_refuse (error : TypeTextError) (pos : Pos) : Yields (refuse error pos) P := by
  intro items b rest hb
  cases hb

theorem yields_true (p : Parse α) : Yields p fun _ => True :=
  fun _ _ _ _ => trivial

theorem accepts_token (tok : Tok) : Accepts token [tok] fun t => t.tok = tok := by
  intro ts rest hts
  obtain ⟨t, ts', rfl, htok, hnil⟩ := List.map_eq_cons_iff.1 hts
  rw [List.map_eq_nil_iff] at hnil
  subst hnil
  exact ⟨t, rfl, htok⟩

theorem accepts_expect (wanted : Tok) : Accepts (expect wanted) [wanted] fun _ => True := by
  refine (accepts_token wanted).bind (v := []) fun t ht => ?_
  rw [if_pos ht]
  exact accepts_pure trivial

theorem accepts_integer (n : Int64) : Accepts integer [.integer n] fun r => r.1 = n.toInt := by
  refine (accepts_token (.integer n)).bind (v := []) fun t ht => ?_
  rw [ht]
  exact accepts_pure rfl

theorem yields_integer : Yields integer fun r => r.1 ≤ 2 ^ 63 - 1 := by
  refine (yields_true token).bind fun t _ => ?_
  split
  · next n _ => exact yields_pure (Int.le_sub_one_of_lt n.toInt_lt)
  · exact yields_refuse _ _

theorem accepts_closing (includesHigh : Bool) :
    Accepts closing [if includesHigh then .closeBracket else .closeParen]
      fun b => b = includesHigh := by
  refine (accepts_token _).bind (v := []) fun t ht => ?_
  rw [ht]
  cases includesHigh <;> exact accepts_pure rfl

theorem accepts_bound {tok : Tok} {x : Binary64} (h : boundValue? tok = some x) :
    Accepts bound [tok] fun y => y = x := by
  refine (accepts_token tok).bind (v := []) fun t ht => ?_
  have hminus : t.tok ≠ .minus := by
    intro hm
    rw [← ht, hm] at h
    cases h
  rw [if_neg hminus, boundOf, ht, h]
  exact accepts_pure rfl

theorem accepts_bound_minus {tok : Tok} {x : Binary64} (h : boundValue? tok = some x) :
    Accepts bound [.minus, tok] fun y => y = x.neg := by
  refine (accepts_token .minus).bind (v := [tok]) fun t ht => ?_
  rw [if_pos ht]
  refine (accepts_token tok).bind (v := []) fun u hu => ?_
  rw [boundOf, hu, h]
  exact accepts_pure rfl

theorem accepts_interval {lows highs : List Tok} {low high : Binary64}
    (hlow : Accepts bound lows fun y => y = low) (hhigh : Accepts bound highs fun y => y = high)
    (hvalid : Interval.validBounds low high) (includesLow includesHigh : Bool) (pos : Pos) :
    Accepts (interval includesLow pos)
      (lows ++ .comma :: (highs ++ [if includesHigh then .closeBracket else .closeParen]))
      fun ty => ty = .interval ⟨low, high, includesLow, includesHigh⟩ := by
  refine hlow.bind fun x hx => ?_
  refine (accepts_expect .comma).bind
    (v := highs ++ [if includesHigh then .closeBracket else .closeParen]) fun _ _ => ?_
  refine hhigh.bind fun y hy => ?_
  refine (accepts_closing includesHigh).bind (v := []) fun b hb => ?_
  subst hx hy hb
  rw [Interval.make, if_pos hvalid]
  exact accepts_pure rfl

theorem accepts_dimensions {rows cols : Int64} (hrows : 0 < rows.toInt) (hcols : 0 < cols.toInt) :
    Accepts dimensions [.openParen, .integer rows, .comma, .integer cols, .closeParen]
      fun ty => ty = .matrix ⟨rows.toInt, cols.toInt⟩ := by
  refine (accepts_expect .openParen).bind
    (v := [.integer rows, .comma, .integer cols, .closeParen]) fun _ _ => ?_
  refine (accepts_integer rows).bind (v := [.comma, .integer cols, .closeParen]) fun r hr => ?_
  refine (accepts_expect .comma).bind (v := [.integer cols, .closeParen]) fun _ _ => ?_
  refine (accepts_integer cols).bind (v := [.closeParen]) fun c hc => ?_
  refine (accepts_expect .closeParen).bind (v := []) fun _ _ => ?_
  have hmake : Shape.make? r.1 c.1 = some ⟨rows.toInt, cols.toInt⟩ := by
    rw [hr, hc, Shape.make?, if_neg (by simp [hrows, hcols])]
  rw [hmake]
  exact accepts_pure rfl

theorem accepts_read_scalar {name : Text} {ty : Ty Binary64} (hword : isMatrixWord name = false)
    (hname : Ty.ofName? name = some ty) : Accepts read [.ident name] fun t => t = ty := by
  refine (accepts_token (.ident name)).bind (v := []) fun t ht => ?_
  rw [ht]
  dsimp only
  rw [if_neg (by simp [hword]), hname]
  exact accepts_pure rfl

theorem accepts_read_matrix {name : Text} {ty : Ty Binary64} (hword : isMatrixWord name)
    (h : Accepts dimensions v fun t => t = ty) :
    Accepts read (.ident name :: v) fun t => t = ty := by
  refine (accepts_token (.ident name)).bind fun t ht => ?_
  rw [ht]
  dsimp only
  rw [if_pos hword]
  exact h

theorem accepts_read_interval {includesLow : Bool} {ty : Ty Binary64}
    (h : ∀ pos, Accepts (interval includesLow pos) v fun t => t = ty) :
    Accepts read ((if includesLow then .openBracket else .openParen) :: v) fun t => t = ty := by
  refine (accepts_token _).bind fun t ht => ?_
  rw [ht]
  cases includesLow <;> exact h t.pos

end TypeText

open TypeText

/-- An annotation whose words are those of a type is read as that type. -/
theorem ofText_eq_ok {w : Text} {toks : List Tok} {ty : Ty Binary64} (hreads : Reads w toks)
    (haccepts : Accepts read toks fun t => t = ty) : Ty.ofText w = .ok ty := by
  obtain ⟨ts, htoks, hitems⟩ := hreads.items
  obtain ⟨t, hread, rfl⟩ := haccepts ts [] htoks
  rw [List.append_nil] at hread
  unfold Ty.ofText StateT.run
  rw [hitems, hread]

/-! ## Bounds -/

theorem reads_magnitudeChars {k : Fin (Binary64.infinityOrd + 1)}
    (h : k.val ≠ Binary64.infinityOrd) :
    ∃ tok, Reads (Text.ofChars (Binary64.magnitudeChars k)) [tok] ∧
      boundValue? tok = some (.num false k) := by
  by_cases hshow : Literal.showsReal (Binary64.magnitudeChars k)
  · -- The text shows that it is a real number, as that of a real literal does.
    have hreads := Literal.reads_magnitude h
    rw [Numeral.realChars, if_pos hshow] at hreads
    exact ⟨_, hreads, rfl⟩
  · have hk : Binary64.ofOrd false k.val = .num false k := by
      unfold Binary64.ofOrd
      congr
      exact Nat.min_eq_left (by omega)
    -- At most six digits are printed without a point, so the integer is in range.
    obtain ⟨hne, hdigits, hvalue⟩ :=
      Numeral.digits_of_denotes hshow (Numeral.denotes_magnitudeChars (k := k.val) (by omega))
    have hlt : Numeral.natOfDigits (Binary64.magnitudeChars k) < 10 ^ 6 :=
      (Numeral.natOfDigits_lt hdigits).trans_le
        (Nat.pow_le_pow_right (by decide) (Numeral.length_magnitudeChars_le hshow))
    refine ⟨_, reads_integer hne hdigits (by omega), ?_⟩
    rw [boundValue?, Int64.toInt_ofNat_of_lt (by omega), Binary64.ofInt_natCast, ← hvalue, hk]

/-- The words of a printed bound are read as this bound. -/
theorem reads_renderBound {x : Binary64} (hnan : x.isNaN = false) (hsign : Binary64.le .zero x) :
    ∃ toks, Reads (Interval.renderBound x) toks ∧ Accepts bound toks fun y => y = x := by
  by_cases hinf : x = .infinity
  · -- Infinity is a name to the scanner, and the reader knows it.
    have hword : Reads (Text.ofString "inf") [.ident "inf"] :=
      reads_name (by decide) (by decide) (List.all_eq_true.1 rfl)
    rw [Interval.renderBound, if_pos hinf, hinf]
    exact ⟨_, hword, accepts_bound rfl⟩
  rw [Interval.renderBound, if_neg hinf, Binary64.render]
  cases x with
  | nan => cases hnan
  | num s k =>
    cases s with
    | false =>
      have hk : k.val ≠ Binary64.infinityOrd := by
        intro hk
        apply hinf
        rw [Binary64.infinity, Binary64.ofOrd, Binary64.num.injEq]
        exact ⟨rfl, Fin.ext (by simp [hk])⟩
      obtain ⟨tok, hreads, hvalue⟩ := reads_magnitudeChars hk
      rw [Binary64.toChars, if_neg hk]
      exact ⟨_, hreads, accepts_bound hvalue⟩
    | true =>
      -- Only zero has a minus sign and is not negative.
      have hzero : k.val = 0 := by
        have hle : (0 : Int) ≤ -(k.val : Int) := of_decide_eq_true hsign
        omega
      have hk : k.val ≠ Binary64.infinityOrd := by
        rw [hzero]
        decide
      obtain ⟨tok, hreads, hvalue⟩ := reads_magnitudeChars hk
      rw [Binary64.toChars, if_neg hk]
      exact ⟨_, hreads.minus, accepts_bound_minus hvalue⟩

/-! ## Well-formed types -/

/-- Whether the bounds of an interval are numbers in ascending order, the lower one of which is not
negative. Either zero is not negative. -/
def Interval.IsProper (iv : Interval Binary64) : Prop :=
  iv.low.isNaN = false ∧ iv.high.isNaN = false ∧ Binary64.le .zero iv.low ∧
    Binary64.lt iv.low iv.high

instance (iv : Interval Binary64) : Decidable iv.IsProper :=
  inferInstanceAs (Decidable (_ ∧ _ ∧ _ ∧ _))

theorem Interval.validBounds_iff {low high : Binary64} (includesLow includesHigh : Bool) :
    Interval.validBounds low high ↔ Interval.IsProper ⟨low, high, includesLow, includesHigh⟩ := by
  unfold Interval.validBounds Interval.IsProper
  cases low with
  | nan => simp [Bound.isNaN, Binary64.isNaN]
  | num s k =>
    cases high with
    | nan => simp [Bound.isNaN, Binary64.isNaN]
    | num t l =>
      simp only [Bound.isNaN, Bound.lt, Bound.le, Bound.zero, Binary64.isNaN, Binary64.lt,
        Binary64.le, Binary64.zero, Binary64.ofOrd, Bool.false_or, Bool.not_eq_true',
        Bool.or_eq_false_iff, decide_eq_false_iff_not, decide_eq_true_eq, Int.not_lt, Int.not_le,
        true_and]

/-- Whether a type is one that an annotation can denote. -/
def Ty.WellFormed : Ty Binary64 → Prop
  | .scalar name => name = "int" ∨ name = "real" ∨ name = "bool"
  | .matrix s => (1 ≤ s.rows ∧ s.rows ≤ 2 ^ 63 - 1) ∧ 1 ≤ s.cols ∧ s.cols ≤ 2 ^ 63 - 1
  | .interval iv => iv.IsProper

instance : DecidablePred Ty.WellFormed
  | .scalar _ => inferInstanceAs (Decidable (_ ∨ _ ∨ _))
  | .matrix _ => inferInstanceAs (Decidable ((_ ∧ _) ∧ _ ∧ _))
  | .interval iv => inferInstanceAs (Decidable iv.IsProper)

theorem ofText_render_scalar {name : String} (h : (Ty.scalar name).WellFormed) :
    Ty.ofText (Ty.scalar name).render = .ok (.scalar name) := by
  have hint : Reads (Text.ofString "int") [.ident "int"] :=
    reads_name (by decide) (by decide) (List.all_eq_true.1 rfl)
  have hreal : Reads (Text.ofString "real") [.ident "real"] :=
    reads_name (by decide) (by decide) (List.all_eq_true.1 rfl)
  have hbool : Reads (Text.ofString "bool") [.ident "bool"] :=
    reads_name (by decide) (by decide) (List.all_eq_true.1 rfl)
  rcases h with rfl | rfl | rfl
  · exact ofText_eq_ok hint (accepts_read_scalar (by decide) (by decide))
  · exact ofText_eq_ok hreal (accepts_read_scalar (by decide) (by decide))
  · exact ofText_eq_ok hbool (accepts_read_scalar (by decide) (by decide))

theorem ofText_render_matrix {shape : Shape} (h : (Ty.matrix shape).WellFormed) :
    Ty.ofText (Ty.matrix shape).render = .ok (.matrix shape) := by
  obtain ⟨⟨hrows, hrowsMax⟩, hcols, hcolsMax⟩ := h
  obtain ⟨rows, cols⟩ := shape
  dsimp only at hrows hrowsMax hcols hcolsMax
  obtain ⟨r, rfl⟩ := Int.eq_ofNat_of_zero_le (Int.le_of_lt hrows)
  obtain ⟨c, rfl⟩ := Int.eq_ofNat_of_zero_le (Int.le_of_lt hcols)
  have htext : (Ty.matrix ⟨r, c⟩).render = Text.ofString "Matrix" ++ .char '(' ::
      (Text.ofNat r ++ .char ',' :: .char ' ' :: (Text.ofNat c ++ [.char ')'])) := by
    change Text.ofString "Matrix(" ++ Text.ofNat r ++ Text.ofString ", " ++ Text.ofNat c ++
      Text.ofString ")" = _
    simp [Text.ofString, Text.ofChars]
  -- The words from the last one to the first.
  have hclose : Reads [.char ')'] [.closeParen] := reads_alone rfl (by decide) (by decide)
  have hc := (Literal.reads_ofNat (m := c) (by omega)).append (by decide) hclose
  have hcomma := hc.blank.sign (c := ',') rfl rfl (by decide) (by decide)
  have hr := (Literal.reads_ofNat (m := r) (by omega)).append (by decide) hcomma
  have hopen := hr.sign (c := '(') rfl rfl (by decide) (by decide)
  have hword : Reads (Text.ofString "Matrix") [.ident "Matrix"] :=
    reads_name (by decide) (by decide) (List.all_eq_true.1 rfl)
  have hrEq : (Int64.ofNat r).toInt = r := Int64.toInt_ofNat_of_lt (by omega)
  have hcEq : (Int64.ofNat c).toInt = c := Int64.toInt_ofNat_of_lt (by omega)
  have haccepts := accepts_dimensions (hrEq ▸ hrows) (hcEq ▸ hcols)
  rw [hrEq, hcEq] at haccepts
  rw [htext]
  exact ofText_eq_ok (hword.append (by decide) hopen) (accepts_read_matrix (by decide) haccepts)

theorem ofText_render_interval {iv : Interval Binary64} (h : iv.IsProper) :
    Ty.ofText (Ty.interval iv).render = .ok (.interval iv) := by
  obtain ⟨low, high, includesLow, includesHigh⟩ := iv
  have hvalid := (Interval.validBounds_iff includesLow includesHigh).2 h
  obtain ⟨hlow, hhigh, hsign, hlt⟩ := h
  dsimp only at hlow hhigh hsign hlt
  have hsignHigh : Binary64.le .zero high := by
    cases low with
    | nan => cases hlow
    | num s k =>
      cases high with
      | nan => cases hhigh
      | num t l =>
        simp only [Binary64.le, Binary64.lt, Binary64.zero, Binary64.ofOrd, decide_eq_true_eq]
          at hsign hlt ⊢
        omega
  obtain ⟨lows, hreadsLow, hacceptsLow⟩ := reads_renderBound hlow hsign
  obtain ⟨highs, hreadsHigh, hacceptsHigh⟩ := reads_renderBound hhigh hsignHigh
  have htext : (Ty.interval ⟨low, high, includesLow, includesHigh⟩).render =
      .char (if includesLow then '[' else '(') :: (Interval.renderBound low ++ .char ',' ::
        .char ' ' :: (Interval.renderBound high ++ [.char (if includesHigh then ']' else ')')])) := by
    rw [Ty.render, Interval.render]
    cases includesLow <;> cases includesHigh <;> simp [Text.ofString, Text.ofChars]
  -- The words from the last one to the first, each in front of a delimiter.
  have hclose : Reads [.char (if includesHigh then ']' else ')')]
      [if includesHigh then .closeBracket else .closeParen] := by
    cases includesHigh <;> exact reads_alone rfl (by decide) (by decide)
  have hhighs := hreadsHigh.append (by cases includesHigh <;> decide) hclose
  have hcomma := hhighs.blank.sign (c := ',') rfl rfl (by decide) (by decide)
  have hlows := hreadsLow.append (by decide) hcomma
  have hopen : Reads (.char (if includesLow then '[' else '(') :: _)
      ((if includesLow then .openBracket else .openParen) :: _) :=
    hlows.sign (by cases includesLow <;> rfl) (by cases includesLow <;> rfl)
      (by cases includesLow <;> decide) (by cases includesLow <;> decide)
  rw [htext]
  refine ofText_eq_ok hopen (accepts_read_interval fun pos => ?_)
  exact accepts_interval hacceptsLow hacceptsHigh hvalid includesLow includesHigh pos

/-- A well-formed type is read back from its text. -/
theorem ofText_render {t : Ty Binary64} (h : t.WellFormed) : Ty.ofText t.render = .ok t := by
  cases t with
  | scalar name => exact ofText_render_scalar h
  | matrix shape => exact ofText_render_matrix h
  | interval iv => exact ofText_render_interval h

/-! ## What is read -/

namespace TypeText

theorem yields_dimensions : Yields dimensions Ty.WellFormed := by
  refine (yields_true _).bind fun _ _ => yields_integer.bind fun r hr => ?_
  refine (yields_true _).bind fun _ _ => yields_integer.bind fun c hc => ?_
  refine (yields_true _).bind fun _ _ => ?_
  split
  · next shape hshape =>
    refine yields_pure ?_
    unfold Shape.make? at hshape
    split at hshape
    · cases hshape
    · next hpos =>
      cases hshape
      simp only [Bool.or_eq_true, decide_eq_true_eq, not_or, Int.not_le] at hpos
      exact ⟨⟨hpos.1, hr⟩, hpos.2, hc⟩
  · exact yields_refuse _ _

theorem yields_interval (includesLow : Bool) (pos : Pos) :
    Yields (interval includesLow pos) Ty.WellFormed := by
  refine (yields_true _).bind fun low _ => (yields_true _).bind fun _ _ => ?_
  refine (yields_true _).bind fun high _ => (yields_true _).bind fun includesHigh _ => ?_
  split
  · next iv hmake =>
    refine yields_pure ?_
    unfold Interval.make at hmake
    split at hmake
    · next hvalid =>
      cases hmake
      exact (Interval.validBounds_iff includesLow includesHigh).1 hvalid
    · cases hmake
  · exact yields_refuse _ _

theorem wellFormed_ofName? {name : Text} {ty : Ty Binary64} (h : Ty.ofName? name = some ty) :
    ty.WellFormed := by
  unfold Ty.ofName? at h
  split at h
  · cases h
    exact .inl rfl
  · split at h
    · cases h
      exact .inr (.inl rfl)
    · split at h
      · cases h
        exact .inr (.inr rfl)
      · cases h

theorem yields_read : Yields read Ty.WellFormed := by
  refine (yields_true _).bind fun t _ => ?_
  split
  · split
    · exact yields_dimensions
    · split
      · next hname => exact yields_pure (wellFormed_ofName? hname)
      · exact yields_refuse _ _
  · exact yields_interval _ _
  · exact yields_interval _ _
  · exact yields_refuse _ _

end TypeText

/-- Only well-formed types are read. -/
theorem wellFormed_of_ofText {source : Text} {t : Ty Binary64} (h : Ty.ofText source = .ok t) :
    t.WellFormed := by
  unfold Ty.ofText at h
  split at h
  · cases h
  · cases h
  · next hread =>
    cases h
    exact yields_read _ _ _ hread
  · cases h
  · cases h

theorem parseType_eq_ok {source : Text} {t : Ty Binary64} :
    parseType source = .ok t ↔ Ty.ofText source = .ok t := by
  unfold parseType
  cases Ty.ofText source <;> simp [Except.mapError]

/-- The text of a well-formed type is an annotation that denotes it. Every type that an annotation
denotes is well-formed, so it is also denoted by its own text. -/
theorem parseType_render (t : Ty Binary64) :
    (t.WellFormed → parseType t.render = .ok t) ∧
      ∀ source, parseType source = .ok t → t.WellFormed ∧ parseType t.render = .ok t := by
  have hrender (h : t.WellFormed) : parseType t.render = .ok t :=
    parseType_eq_ok.2 (ofText_render h)
  refine ⟨hrender, fun source h => ?_⟩
  have hwell := wellFormed_of_ofText (parseType_eq_ok.1 h)
  exact ⟨hwell, hrender hwell⟩

/-- Negative zero, and a bound that is printed with an exponent. -/
theorem parseType_render_halfOpen :
    let t : Ty Binary64 := .interval ⟨.ofOrd true 0, .ofDecimal false 1 21, true, false⟩
    t.WellFormed ∧ t.render = "[-0, 1e+21)" ∧ parseType "[ -0.0,1000E18 )" = .ok t ∧
      parseType t.render = .ok t := by
  intro t
  have hwell : t.WellFormed := by decide +kernel
  have hsource : parseType "[ -0.0,1000E18 )" = .ok t := parseType_eq_ok.2 (by decide +kernel)
  exact ⟨hwell, by decide +kernel, hsource, ((parseType_render t).2 _ hsource).2⟩

end ExprTyping
