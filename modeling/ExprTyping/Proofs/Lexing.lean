import ExprTyping.Proofs.Lexemes

/-!
# What the scanner reads

The scanner is followed over a source of characters: what each of its parts takes off the source,
and what the text taken is. No byte of such a source is stray, so one byte of look-ahead tells an
ASCII character from every other one.

- `exists_skip`: what is skipped is a gap;
- `readsWord_scanNumber`, `readsWord_scanName` and `readsWord_scanWord`: what is read is a lexeme of
  its word;
- `trace_items`: a source is gaps and lexemes in turn, and every word has the place of its lexeme.
-/

namespace ExprTyping

namespace Cursor

/-! ## The byte of look-ahead -/

theorem aheadOf_ascii {c : Char} (h : c.toNat < 128) : aheadOf (.char c) = c := by
  unfold aheadOf Glyph.lead
  dsimp only
  rw [if_pos h, Char.ofNat_toNat]

/-- The first byte of a character outside ASCII. -/
theorem lead_wide {c : Char} (h : 128 ≤ c.toNat) :
    0xC2 ≤ (Glyph.char c).lead ∧ (Glyph.char c).lead < 0xF5 := by
  have hvalid : c.toNat < 0xD800 ∨ 0xDFFF < c.toNat ∧ c.toNat < 0x110000 := c.valid
  unfold Glyph.lead
  dsimp only
  split_ifs <;> omega

/-- A fact about the characters of ASCII is one about 128 numbers. -/
theorem forall_ascii {P : Char → Prop} (h : ∀ n < 128, P (Char.ofNat n)) {c : Char}
    (hc : c.toNat < 128) : P c := by
  rw [← Char.ofNat_toNat c]
  exact h _ hc

/-- A numeral goes on with the digits 0 to 9 only: no first byte is a digit of another script. -/
theorem continuesNumber_char (c : Char) : continuesNumber (.char c) = c.isDigit := by
  unfold continuesNumber
  by_cases h : c.toNat < 128
  · rw [aheadOf_ascii h]
    exact forall_ascii (P := fun c => Text.isDecimalDigit c = c.isDigit) (by decide) h
  · -- Both sides are false for a wide character.
    obtain ⟨hlow, hhigh⟩ := lead_wide (Nat.le_of_not_lt h)
    have hwide : ∀ n < 0xF5, 0xC2 ≤ n → Text.isDecimalDigit (Char.ofNat n) = false := by
      decide +kernel
    have hdigit : c.isDigit = false := by
      by_contra hc
      rw [Bool.not_eq_false] at hc
      have hascii := forall_isDigit (q := fun c => c.toNat < 128) (by decide) hc
      exact h (of_decide_eq_true hascii)
    rw [aheadOf, hwide _ hhigh hlow, hdigit]

/-- An ASCII character in front of the look-ahead is the next one. -/
theorem exists_of_ahead {x : Char} (hx : x.toNat < 128) (hnul : x ≠ Char.ofNat 0) {cs : List Char}
    (h : ahead (Text.ofChars cs) = x) : ∃ t, cs = x :: t := by
  cases cs with
  | nil => exact absurd h.symm hnul
  | cons c t =>
    change aheadOf (.char c) = x at h
    by_cases hc : c.toNat < 128
    · rw [aheadOf_ascii hc] at h
      exact ⟨t, by rw [h]⟩
    · -- The first byte of a wide character is no character of ASCII.
      obtain ⟨hlow, hhigh⟩ := lead_wide (Nat.le_of_not_lt hc)
      have hwide : ∀ n < 0xF5, 0xC2 ≤ n → ¬ (Char.ofNat n).toNat < 128 := by decide +kernel
      rw [← h] at hx
      exact absurd hx (hwide _ hhigh hlow)

/-! ## Gaps -/

theorem isSeparator_iff {c : Char} : isSeparator (.char c) ↔ c ∈ [' ', '\t', '\r', '\n'] := by
  simp only [isSeparator, Glyph.char.injEq, Bool.or_eq_true, decide_eq_true_eq, List.mem_cons,
    List.not_mem_nil, or_false]
  tauto

/-- What is skipped, `gap`, in front of `rest`. In a comment, `gap` starts with the rest of it. -/
def Skipped (inComment : Bool) (gap rest : List Char) : Prop :=
  (∀ c ∈ rest.head?, isSeparator (.char c) = false ∧ c ≠ '#') ∧
    if inComment then ∀ body, '\n' ∉ body → Gap rest.isEmpty ('#' :: (body ++ gap))
    else Gap rest.isEmpty gap

theorem exists_skip (inComment : Bool) (cs : List Char) (p : Pos) :
    ∃ gap rest, cs = gap ++ rest ∧ Skipped inComment gap rest ∧
      skip inComment (Text.ofChars cs) p = ⟨Text.ofChars rest, p.after (Text.ofChars gap)⟩ := by
  induction cs generalizing inComment p with
  | nil =>
    refine ⟨[], [], rfl, ⟨nofun, ?_⟩, rfl⟩
    cases inComment with
    | false => exact .nil true
    | true =>
      intro body hbody
      rw [List.append_nil]
      exact .unfinished hbody
  | cons c cs ih =>
    change ∃ gap rest, _ ∧ _ ∧ skip inComment (.char c :: Text.ofChars cs) p = _
    rw [skip]
    cases inComment with
    | true =>
      -- What has been read of the comment is carried along in `body` until its line ends.
      obtain ⟨gap, rest, rfl, ⟨hhead, hgap⟩, hskip⟩ := ih (Glyph.char c != .char '\n')
        (p.advance (.char c))
      refine ⟨c :: gap, rest, rfl, ⟨hhead, fun body hbody => ?_⟩, hskip⟩
      by_cases hc : c = '\n'
      · subst hc
        exact .comment hbody hgap
      · rw [if_pos (by simp [hc])] at hgap
        have hmore : '\n' ∉ body ++ [c] := by
          simp [hbody, Ne.symm hc]
        have h := hgap (body ++ [c]) hmore
        rwa [List.append_assoc] at h
    | false =>
      rw [if_neg Bool.false_ne_true]
      by_cases hblank : isSeparator (.char c)
      · obtain ⟨gap, rest, rfl, ⟨hhead, hgap⟩, hskip⟩ := ih false (p.advance (.char c))
        rw [if_pos hblank]
        exact ⟨c :: gap, rest, rfl, ⟨hhead, .blank (isSeparator_iff.1 hblank) hgap⟩, hskip⟩
      · by_cases hmark : c = '#'
        · subst hmark
          obtain ⟨gap, rest, rfl, ⟨hhead, hgap⟩, hskip⟩ := ih true (p.advance (.char '#'))
          exact ⟨'#' :: gap, rest, rfl, ⟨hhead, hgap [] List.not_mem_nil⟩, hskip⟩
        · -- The first character of a word ends the gap.
          rw [if_neg hblank, if_neg (fun heq => hmark (Glyph.char.inj heq))]
          refine ⟨[], c :: cs, rfl, ⟨?_, .nil false⟩, rfl⟩
          intro d hd
          cases hd
          exact ⟨Bool.eq_false_iff.2 hblank, hmark⟩

/-! ## Runs -/

theorem exists_takeRun (q : Glyph → Bool) (cs : List Char) (p : Pos) :
    ∃ run rest, cs = run ++ rest ∧ (∀ c ∈ run, q (.char c)) ∧
      (∀ c ∈ rest.head?, q (.char c) = false) ∧
      takeRun q ⟨Text.ofChars cs, p⟩ = (run, ⟨Text.ofChars rest, p.after (Text.ofChars run)⟩) := by
  have hrun : ∀ c ∈ cs.takeWhile (q ∘ .char), q (.char c) :=
    fun c hc => List.all_eq_true.1 List.all_takeWhile c hc
  have hstop : ∀ c ∈ (cs.dropWhile (q ∘ .char)).head?, q (.char c) = false := by
    intro c hc
    have h := List.head?_dropWhile_not (q ∘ .char) cs
    rw [Option.mem_def.1 hc] at h
    simpa using h
  refine ⟨_, _, List.takeWhile_append_dropWhile.symm, hrun, hstop, ?_⟩
  have hsplit : Text.ofChars cs = Text.ofChars (cs.takeWhile (q ∘ .char)) ++
      Text.ofChars (cs.dropWhile (q ∘ .char)) := by
    rw [Text.ofChars, Text.ofChars, Text.ofChars, ← List.map_append,
      List.takeWhile_append_dropWhile]
  rw [hsplit, takeRun_append (forall_ofChars hrun), toChars_ofChars]
  intro g t hcons
  cases hrest : cs.dropWhile (q ∘ .char) with
  | nil =>
    rw [hrest] at hcons
    cases hcons
  | cons c u =>
    rw [hrest] at hcons hstop
    cases hcons
    exact hstop c rfl

theorem exists_digits (cs : List Char) (p : Pos) :
    ∃ ds rest, cs = ds ++ rest ∧ (∀ c ∈ ds, c.isDigit) ∧ takeRun continuesNumber
      ⟨Text.ofChars cs, p⟩ = (ds, ⟨Text.ofChars rest, p.after (Text.ofChars ds)⟩) := by
  obtain ⟨ds, rest, hcs, hds, -, htake⟩ := exists_takeRun continuesNumber cs p
  exact ⟨ds, rest, hcs, fun c hc => continuesNumber_char c ▸ hds c hc, htake⟩

/-! ## Numerals -/

theorem drop1_ofChars (c : Char) (t : List Char) (p : Pos) :
    drop1 ⟨Text.ofChars (c :: t), p⟩ = ⟨Text.ofChars t, p.advance (.char c)⟩ := rfl

/-- Whether a mantissa has digits 0 to 9 only. -/
structure Mantissa.IsPlain (m : Mantissa) : Prop where
  whole_ne_nil : m.whole ≠ []
  whole : ∀ c ∈ m.whole, c.isDigit
  fraction : ∀ c ∈ m.fraction, c.isDigit
  fraction_eq_nil : m.point = false → m.fraction = []

theorem exists_scanMantissa (first : Char) (cs : List Char) (p : Pos) :
    ∃ m word rest, cs = word ++ rest ∧
      scanMantissa first ⟨Text.ofChars cs, p⟩ =
        (m, ⟨Text.ofChars rest, p.after (Text.ofChars word)⟩) ∧
      m.toChars = Numeral.zeroBeforePoint (first :: word) ∧
      (first = '.' ∨ first.isDigit → m.IsPlain) := by
  obtain ⟨ds, rest, rfl, hds, htake⟩ := exists_digits cs p
  unfold scanMantissa
  rw [htake]
  by_cases hfirst : first = '.'
  · -- The zero in front of the point is not in the source.
    subst hfirst
    refine ⟨⟨['0'], true, ds⟩, ds, rest, rfl, rfl, rfl, fun _ => ⟨?_, ?_, hds, nofun⟩⟩
    · exact List.cons_ne_nil _ _
    · simp
  · have hwhole (hplain : first = '.' ∨ first.isDigit) : ∀ c ∈ first :: ds, c.isDigit :=
      List.forall_mem_cons.2 ⟨hplain.resolve_left hfirst, hds⟩
    rw [if_neg hfirst]
    dsimp only
    by_cases hpoint : ahead (Text.ofChars rest) = '.'
    · obtain ⟨t, rfl⟩ := exists_of_ahead (by decide) (by decide) hpoint
      obtain ⟨fs, behind, rfl, hfs, htake'⟩ :=
        exists_digits t ((p.after (Text.ofChars ds)).advance (.char '.'))
      refine ⟨⟨first :: ds, true, fs⟩, ds ++ '.' :: fs, behind, by simp, ?_, ?_, fun hplain => ?_⟩
      · rw [if_pos hpoint, drop1_ofChars, htake', Pos.after_ofChars_append]
        rfl
      · rw [Numeral.zeroBeforePoint_cons hfirst]
        rfl
      · exact ⟨List.cons_ne_nil _ _, hwhole hplain, hfs, nofun⟩
    · refine ⟨⟨first :: ds, false, []⟩, ds, rest, rfl, by rw [if_neg hpoint], ?_, fun hplain => ?_⟩
      · rw [Numeral.zeroBeforePoint_cons hfirst]
        exact List.append_nil _
      · exact ⟨List.cons_ne_nil _ _, hwhole hplain, nofun, fun _ => rfl⟩

theorem exists_scanSign (cs : List Char) (p : Pos) :
    ∃ sign rest, cs = sign ++ rest ∧ sign ∈ [[], ['+'], ['-']] ∧
      scanSign ⟨Text.ofChars cs, p⟩ =
        (sign, ⟨Text.ofChars rest, p.after (Text.ofChars sign)⟩) := by
  unfold scanSign
  dsimp only
  by_cases hsign : isSign (ahead (Text.ofChars cs))
  · have hcases : ahead (Text.ofChars cs) = '-' ∨ ahead (Text.ofChars cs) = '+' := by
      simpa [isSign] using hsign
    rcases hcases with hahead | hahead <;>
      obtain ⟨t, rfl⟩ := exists_of_ahead (by decide) (by decide) hahead
    · exact ⟨['-'], t, rfl, by decide, rfl⟩
    · exact ⟨['+'], t, rfl, by decide, rfl⟩
  · exact ⟨[], cs, rfl, by decide, if_neg hsign⟩

/-- Whether an exponent is read from a text. -/
def Exponent.ReadFrom (word : List Char) : Exponent → Prop
  | .absent => word = []
  | .malformed _ => True
  | .present neg ds => ds ≠ [] ∧ (∀ c ∈ ds, c.isDigit) ∧ Numeral.ExponentText word neg ds

theorem exponentText_of_sign {mark : Char} {sign ds : List Char} (hmark : mark = 'e' ∨ mark = 'E')
    (hsign : sign ∈ [[], ['+'], ['-']]) (hne : ds ≠ []) :
    Numeral.ExponentText (mark :: (sign ++ ds)) (sign == ['-']) ds := by
  simp only [List.mem_cons, List.not_mem_nil, or_false] at hsign
  rcases hsign with rfl | rfl | rfl
  · exact .unsigned hmark hne
  · exact .plus hmark hne
  · exact .minus hmark hne

theorem exists_scanExponent (cs : List Char) (p : Pos) :
    ∃ e word rest, cs = word ++ rest ∧
      scanExponent ⟨Text.ofChars cs, p⟩ =
        (e, ⟨Text.ofChars rest, p.after (Text.ofChars word)⟩) ∧ e.ReadFrom word := by
  unfold scanExponent
  dsimp only
  by_cases hmark : isExponentMark (ahead (Text.ofChars cs))
  · obtain ⟨mark, hahead⟩ : ∃ mark, ahead (Text.ofChars cs) = mark := ⟨_, rfl⟩
    have hcase : mark = 'e' ∨ mark = 'E' := by simpa [isExponentMark, hahead] using hmark
    obtain ⟨t, rfl⟩ : ∃ t, cs = mark :: t := by
      refine exists_of_ahead ?_ ?_ hahead <;> rcases hcase with rfl | rfl <;> decide
    -- The mark, the sign and the digits are taken off one after the other.
    obtain ⟨sign, u, rfl, hsign, hscan⟩ := exists_scanSign t (p.advance (.char mark))
    obtain ⟨ds, rest, rfl, hds, htake⟩ :=
      exists_digits u ((p.advance (.char mark)).after (Text.ofChars sign))
    rw [if_pos hmark, drop1_ofChars, hscan, htake]
    dsimp only
    have hsplit : mark :: (sign ++ (ds ++ rest)) = (mark :: (sign ++ ds)) ++ rest := by
      rw [List.cons_append, List.append_assoc]
    have hbehind : ((p.advance (.char mark)).after (Text.ofChars sign)).after (Text.ofChars ds) =
        p.after (Text.ofChars (mark :: (sign ++ ds))) := by
      rw [← Pos.after_ofChars_append]
      rfl
    rw [hbehind]
    by_cases hempty : ds = []
    · exact ⟨.malformed _, _, rest, hsplit, by rw [if_pos (List.isEmpty_iff.2 hempty)], trivial⟩
    · refine ⟨.present (sign == ['-']) ds, _, rest, hsplit, ?_, hempty, hds, ?_⟩
      · rw [if_neg (mt List.isEmpty_iff.1 hempty)]
      · exact exponentText_of_sign hcase hsign hempty
  · exact ⟨.absent, [], cs, rfl, by rw [if_neg hmark]; rfl, rfl⟩

/-! What a numeral is read as: the parts of the scanner put together. -/

section NumberTok

variable {tok : Tok} {lexeme : List Char}

theorem spelledBy_of_realTok {n : Numeral} (hn : n.IsPlain)
    (hspelled : Numeral.Spelled (Numeral.zeroBeforePoint lexeme) n) (h : realTok n = .ok tok) :
    tok.SpelledBy lexeme := by
  unfold realTok at h
  split at h
  · cases h
  · next hfinite =>
    cases h
    exact ⟨n, hn, hspelled, rfl, Bool.eq_false_iff.2 hfinite⟩

theorem spelledBy_of_integerTok (hne : lexeme ≠ []) (hds : ∀ c ∈ lexeme, c.isDigit)
    (h : integerTok lexeme = .ok tok) : tok.SpelledBy lexeme := by
  unfold integerTok at h
  dsimp only at h
  split at h
  · next hrange =>
    cases h
    exact ⟨hne, hds, Int64.toInt_ofNat_of_lt hrange⟩
  · cases h

theorem Mantissa.IsPlain.spelled {m : Mantissa} (hm : m.IsPlain) {word ds : List Char} {neg : Bool}
    (hword : Numeral.ExponentText word neg ds) (hreal : m.point = true ∨ word ≠ []) :
    Numeral.Spelled (m.toChars ++ word) ⟨m.whole, m.fraction, neg, ds⟩ := by
  cases hpoint : m.point with
  | true =>
    refine ⟨'.' :: m.fraction, word, ?_, .present _, hword, .inl (List.cons_ne_nil _ _)⟩
    rw [Mantissa.toChars, hpoint, List.append_assoc]
    rfl
  | false =>
    rw [hpoint] at hreal
    refine ⟨[], word, ?_, ?_, hword, .inr (hreal.resolve_left Bool.false_ne_true)⟩
    · rw [Mantissa.toChars, hpoint, List.append_assoc, hm.fraction_eq_nil hpoint]
      rfl
    · dsimp only
      rw [hm.fraction_eq_nil hpoint]
      exact .absent

theorem spelledBy_of_numberTok {m : Mantissa} {e : Exponent} {word : List Char} (hm : m.IsPlain)
    (he : e.ReadFrom word) (hlexeme : m.toChars ++ word = Numeral.zeroBeforePoint lexeme)
    (h : numberTok true m e = .ok tok) : tok.SpelledBy lexeme := by
  cases e with
  | malformed read => cases h
  | present neg ds =>
    obtain ⟨hne, hds, hword⟩ := he
    have hnonempty : word ≠ [] := by
      rintro rfl
      cases hword
      exact hne rfl
    refine spelledBy_of_realTok ⟨hm.whole_ne_nil, hm.whole, hm.fraction, hds⟩ ?_ h
    rw [← hlexeme]
    exact hm.spelled hword (.inr hnonempty)
  | absent =>
    obtain rfl : word = [] := he
    rw [numberTok] at h
    split at h
    · next hpoint =>
      have hplain : Numeral.IsPlain ⟨m.whole, m.fraction, false, []⟩ :=
        ⟨hm.whole_ne_nil, hm.whole, hm.fraction, List.forall_mem_nil _⟩
      refine spelledBy_of_realTok hplain ?_ h
      rw [← hlexeme]
      exact hm.spelled .absent (.inl hpoint)
    · next hpoint =>
      -- With no point and no exponent the digits are the whole lexeme.
      rw [Bool.not_eq_true] at hpoint
      have hwhole : Numeral.zeroBeforePoint lexeme = m.whole := by
        rw [← hlexeme, Mantissa.toChars, hpoint, hm.fraction_eq_nil hpoint]
        simp
      have hsame := Numeral.zeroBeforePoint_of_digits (hwhole ▸ hm.whole)
      rw [hsame] at hwhole
      rw [hwhole]
      exact spelledBy_of_integerTok hm.whole_ne_nil hm.whole h

end NumberTok

end Cursor

/-! ## Words -/

/-- Whether a word is a name or a keyword. -/
def Tok.isName : Tok → Bool
  | .ident _ | .and | .or | .not => true
  | _ => false

theorem Tok.SpelledBy.startsName {tok : Tok} {first : Char} {more : List Char}
    (h : SpelledBy (first :: more) tok) (hname : tok.isName) : startsName first := by
  cases tok with
  | ident name => exact h.2.1.1
  | and | or | not =>
    obtain heq | ⟨heq, -⟩ := h <;> cases heq
    decide
  | _ => cases hname

namespace Cursor

/-- Whether a text is a run of name characters in front of `rest`, as far as the look-ahead sees. -/
def NameRun (lexeme rest : List Char) : Prop :=
  ∃ first more, lexeme = first :: more ∧ startsName first ∧
    (∀ c ∈ more, continuesName (.char c)) ∧ ∀ c ∈ rest.head?, continuesName (.char c) = false

/-- What a word owes to the text that it is read from, `lexeme` in front of `rest`. -/
structure ReadFrom (lexeme rest : List Char) (tok : Tok) : Prop where
  spelled : tok.SpelledBy lexeme
  run : tok.isName → NameRun lexeme rest

/-- A word that does not start like a name is none. -/
theorem readFrom_of_spelled {first : Char} {more : List Char} {tok : Tok}
    (h : tok.SpelledBy (first :: more)) (hfirst : ¬ startsName first) (rest : List Char) :
    ReadFrom (first :: more) rest tok :=
  ⟨h, fun hname => absurd (h.startsName hname) hfirst⟩

/-- Whether an item and what is left behind it are read from characters, of which the first stands
at `p`: the word of the item stands at `p` too. -/
def ReadsWord (first : Char) (cs : List Char) (p : Pos) (out : Item × Cursor) : Prop :=
  ∃ more rest, cs = more ++ rest ∧ out.2 = ⟨Text.ofChars rest, p.after (Text.ofChars more)⟩ ∧
    ∀ t, out.1 = .token t → t.pos = p ∧ ReadFrom (first :: more) rest t.tok

theorem spelledBy_withEquals {c : Char} {tok : Tok} (h : withEquals? c = some tok) :
    tok.SpelledBy [c, '='] := by
  unfold withEquals? at h
  split at h <;> cases h
  · exact .inl rfl
  · exact .inl rfl
  · exact .inr ⟨rfl, rfl⟩
  · exact .inl rfl
  · exact .inl rfl

theorem spelledBy_alone {c : Char} {tok : Tok} (h : alone? c = some tok) : tok.SpelledBy [c] := by
  unfold alone? at h
  split at h <;> cases h <;> exact .inl rfl

/-- A numeral that starts with a digit of another script is no word. -/
theorem plain_of_numberTok {plain : Bool} {m : Mantissa} {e : Exponent} {tok : Tok}
    (h : numberTok plain m e = .ok tok) : plain = true := by
  cases plain with
  | true => rfl
  | false =>
    cases e with
    | malformed read => cases h
    | present neg ds => cases h
    | absent =>
      rw [numberTok] at h
      split at h <;> cases h

theorem isNameText_of_run {first : Char} {more : List Char} (hfirst : startsName first)
    (hmore : ∀ c ∈ more, continuesName (.char c)) : IsNameText (first :: more) := by
  refine ⟨hfirst, fun c hc hascii => ?_⟩
  have hcontinues := hmore c hc
  unfold continuesName at hcontinues
  rw [aheadOf_ascii hascii] at hcontinues
  exact forall_ascii (P := fun c => (Text.isLetter c || Text.isDecimalDigit c || c == '_') →
    c.isAlphanum ∨ c = '_') (by decide) hascii hcontinues

/-- A run of name characters is a keyword or spells itself. -/
theorem spelledBy_nameTok {lexeme : List Char} (h : IsNameText lexeme) :
    (nameTok (Text.ofChars lexeme)).SpelledBy lexeme := by
  unfold nameTok
  split
  · next heq => exact .inl (ofChars_injective heq)
  · next hand =>
    split
    · next heq => exact .inl (ofChars_injective heq)
    · next hor =>
      split
      · next heq => exact .inl (ofChars_injective heq)
      · next hnot =>
        refine ⟨rfl, h, fun tok htok heq => ?_⟩
        subst heq
        -- No sign starts like a name, so the three keywords are left.
        have hwords : ∀ tok ∈ Tok.fixed, tok.kind.toList.head?.any startsName →
            tok = .and ∨ tok = .or ∨ tok = .not := by
          decide
        rcases hwords tok htok h.head with rfl | rfl | rfl
        · exact hand rfl
        · exact hor rfl
        · exact hnot rfl

section ReadsWord

variable (first : Char) (cs : List Char) (p : Pos)

theorem readsWord_scanNumber :
    ReadsWord first cs p (scanNumber first ⟨Text.ofChars cs, p⟩) := by
  obtain ⟨m, word, t, rfl, hmantissa, hchars, hplain⟩ := exists_scanMantissa first cs p
  obtain ⟨e, word', rest, rfl, hexponent, he⟩ :=
    exists_scanExponent t (p.after (Text.ofChars word))
  unfold scanNumber
  rw [hmantissa]
  dsimp only
  rw [hexponent]
  dsimp only
  refine ⟨word ++ word', rest, (List.append_assoc ..).symm, ?_, ?_⟩
  · rw [Pos.after_ofChars_append]
    split <;> rfl
  · intro tok htok
    split at htok
    · next found hfound =>
      cases htok
      have hdecide := plain_of_numberTok hfound
      have hfirst : first = '.' ∨ first.isDigit := by simpa using hdecide
      have hspelled : found.SpelledBy (first :: (word ++ word')) := by
        rw [hdecide] at hfound
        refine spelledBy_of_numberTok (hplain hfirst) he ?_ hfound
        rw [hchars, ← Numeral.zeroBeforePoint_append]
        rfl
      refine ⟨rfl, readFrom_of_spelled hspelled (fun hstart => ?_) rest⟩
      obtain ⟨hdigit, hpoint⟩ := startsName_not_numeric hstart
      rw [hdigit] at hfirst
      exact absurd (hfirst.resolve_right Bool.false_ne_true) hpoint
    · cases htok

theorem readsWord_scanName (h : startsName first) :
    ReadsWord first cs p (scanName first ⟨Text.ofChars cs, p⟩) := by
  obtain ⟨more, rest, rfl, hmore, hrest, htake⟩ := exists_takeRun continuesName cs p
  unfold scanName
  rw [htake]
  refine ⟨more, rest, rfl, rfl, ?_⟩
  intro t ht
  cases ht
  exact ⟨rfl, spelledBy_nameTok (isNameText_of_run h hmore), fun _ =>
    ⟨first, more, rfl, h, hmore, hrest⟩⟩

theorem readsWord_scanWord : ReadsWord first cs p (scanWord first ⟨Text.ofChars cs, p⟩) := by
  unfold scanWord
  split
  · next tok t hsign hcons =>
    -- A sign with an equals sign behind it.
    obtain ⟨rest, rfl⟩ : ∃ rest, cs = '=' :: rest := by
      cases cs with
      | nil => cases hcons
      | cons c rest =>
        cases hcons
        exact ⟨rest, rfl⟩
    cases hcons
    refine ⟨['='], rest, rfl, rfl, ?_⟩
    intro t ht
    cases ht
    refine ⟨rfl, readFrom_of_spelled (spelledBy_withEquals hsign) (fun hstart => ?_) rest⟩
    rw [withEquals?_of_startsName hstart] at hsign
    cases hsign
  · split
    · next tok hsign =>
      refine ⟨[], cs, rfl, rfl, ?_⟩
      intro t ht
      cases ht
      refine ⟨rfl, readFrom_of_spelled (spelledBy_alone hsign) (fun hstart => ?_) cs⟩
      rw [alone?_of_startsName hstart] at hsign
      cases hsign
    · split
      · exact readsWord_scanNumber first cs p
      · split
        · next hstart => exact readsWord_scanName first cs p hstart
        · -- An unexpected character is a fault, and only it is consumed.
          exact ⟨[], cs, rfl, rfl, nofun⟩

end ReadsWord

/-! ## Items -/

theorem exists_scan (before cs : List Char) :
    (Gap true cs ∧ ∃ behind,
      scan ⟨Text.ofChars cs, Pos.start.after (Text.ofChars before)⟩ = (none, behind)) ∨
    ∃ gap first more rest item, cs = gap ++ (first :: more) ++ rest ∧ Gap false gap ∧
      scan ⟨Text.ofChars cs, Pos.start.after (Text.ofChars before)⟩ = (some item,
        ⟨Text.ofChars rest, Pos.start.after (Text.ofChars (before ++ gap ++ first :: more))⟩) ∧
      ∀ t, item = .token t →
        t.pos = Pos.following (before ++ gap) ∧ ReadFrom (first :: more) rest t.tok := by
  obtain ⟨gap, rest, rfl, ⟨hhead, hgap⟩, hskip⟩ :=
    exists_skip false cs (Pos.start.after (Text.ofChars before))
  rw [← Pos.after_ofChars_append] at hskip
  unfold scan skipBlanks
  dsimp only
  rw [hskip]
  cases rest with
  | nil =>
    rw [List.append_nil]
    exact .inl ⟨hgap, _, rfl⟩
  | cons first t =>
    -- No word starts with a line break, so advancing over its first character adds a column.
    have hbreak : first ≠ '\n' := by
      rintro rfl
      exact absurd (hhead '\n' rfl).1 (by decide)
    have hplace : (Pos.start.after (Text.ofChars (before ++ gap))).advance (.char first) =
        .following (before ++ gap) := Pos.advance_after hbreak
    obtain ⟨more, rest, rfl, hbehind, htoken⟩ :=
      readsWord_scanWord first t (Pos.following (before ++ gap))
    refine .inr ⟨gap, first, more, rest, _, by simp, hgap, ?_, htoken⟩
    change (some (scanWord first ⟨_, Pos.advance _ (.char first)⟩).1,
      (scanWord first ⟨_, Pos.advance _ (.char first)⟩).2) = _
    rw [hplace]
    refine Prod.ext rfl (hbehind.trans ?_)
    rw [Pos.after_ofChars_append _ (before ++ gap), ← hplace]
    rfl

/-- A source as gaps and lexemes in turn, `before` having been read already. A word stands where its
lexeme starts; what a fault is read from is some text. -/
inductive Trace : List Char → List Char → List Item → Prop
  | done {before gap : List Char} : Gap true gap → Trace before gap []
  | token {before gap lexeme rest : List Char} {tok : Tok} {items : List Item} :
      Gap false gap → ReadFrom lexeme rest tok → Trace (before ++ gap ++ lexeme) rest items →
      Trace before (gap ++ lexeme ++ rest)
        (.token ⟨tok, .following (before ++ gap)⟩ :: items)
  | fault {before gap text rest : List Char} {fault : ScanFault} {items : List Item} :
      Gap false gap → Trace (before ++ gap ++ text) rest items →
      Trace before (gap ++ text ++ rest) (.fault fault :: items)

theorem trace_scanAll (before cs : List Char) :
    Trace before cs (scanAll ⟨Text.ofChars cs, Pos.start.after (Text.ofChars before)⟩).1 := by
  -- Each item consumes at least the first character of its text.
  induction hlength : cs.length using Nat.strong_induction_on generalizing before cs with
  | h n ih =>
    obtain ⟨hgap, behind, hscan⟩ | ⟨gap, first, more, rest, item, rfl, hgap, hscan, htoken⟩ :=
      exists_scan before cs
    · rw [scanAll_of_none hscan]
      exact .done hgap
    · have hshorter : rest.length < n := by
        simp only [List.length_append, List.length_cons] at hlength
        omega
      have htrace := ih rest.length hshorter (before ++ gap ++ first :: more) rest rfl
      rw [scanAll_of_scan hscan]
      cases item with
      | token t =>
        obtain ⟨tok, pos⟩ := t
        obtain ⟨rfl, hread⟩ := htoken _ rfl
        exact .token hgap hread htrace
      | fault fault => exact .fault hgap htrace

/-- What the items of a source of characters are read from. -/
theorem trace_items (cs : List Char) : Trace [] cs (Text.ofChars cs).items :=
  trace_scanAll [] cs

end Cursor

end ExprTyping
