import ExprTyping.Proofs.Scanning
import ExprTyping.Proofs.Sentence

/-!
# Line ends

No character goes on over a line break, every word and every comment ends in front of it, and it
leaves no trace of its own. So what stands in front of a line break is read as if the source ended
there, whatever follows.

- `Text.ofBytes_newline`: the bytes in front of a line break decode on their own;
- `Cursor.scanWord_extend` and `Cursor.skip_newline`: one word, and what stands between two words;
- `Cursor.scanAll_newline`: the items of a source that goes on behind a line break are those of its
  first part and then those of the rest;
- `Machine.run_append`: an error met among some items is not cured by further ones;
- `parseExpr_newline`: nor is it by further lines.
-/

namespace ExprTyping

/-! ## Bytes -/

namespace Text

theorem continues_of_between {lo hi b : UInt8} (hlo : 0x80 ≤ lo) (hhi : hi ≤ 0xBF)
    (h : between lo hi b) : continues b := by
  simp only [continues, between, Bool.and_eq_true, decide_eq_true_eq] at h ⊢
  exact ⟨UInt8.le_trans hlo h.1, UInt8.le_trans h.2 hhi⟩

theorem continues_of_isPair {b c : UInt8} (h : isPair b c) : continues c := by
  simp only [isPair, Bool.and_eq_true] at h
  exact h.2

theorem continues_of_isTriple {b c d : UInt8} (h : isTriple b c d) :
    continues c ∧ continues d := by
  simp only [isTriple, Bool.and_eq_true] at h
  refine ⟨?_, h.2⟩
  replace h := h.1
  split_ifs at h
  · exact continues_of_between (by decide) (by decide) h
  · exact continues_of_between (by decide) (by decide) h
  · simp only [Bool.and_eq_true] at h
    exact h.2

theorem continues_of_isQuad {b c d e : UInt8} (h : isQuad b c d e) :
    continues c ∧ continues d ∧ continues e := by
  simp only [isQuad, Bool.and_eq_true] at h
  refine ⟨?_, h.1.2, h.2⟩
  replace h := h.1.1
  split_ifs at h
  · exact continues_of_between (by decide) (by decide) h
  · exact continues_of_between (by decide) (by decide) h
  · simp only [Bool.and_eq_true] at h
    exact h.2

/-- The line break as a byte. -/
def newline : UInt8 := 0x0A

theorem not_continues_newline : ¬ continues newline := by
  decide

/-- The bytes of a character do not reach over a line break, so whether one starts in front of it
does not depend on what follows. -/
theorem leading_newline (b : UInt8) (rest behind : List UInt8) :
    leading b (rest ++ newline :: behind) = leading b rest := by
  have hpair (b : UInt8) : isPair b newline = false :=
    Bool.eq_false_iff.2 fun h => not_continues_newline (continues_of_isPair h)
  have htriple (b c : UInt8) : isTriple b newline c = false :=
    Bool.eq_false_iff.2 fun h => not_continues_newline (continues_of_isTriple h).1
  have htriple' (b c : UInt8) : isTriple b c newline = false :=
    Bool.eq_false_iff.2 fun h => not_continues_newline (continues_of_isTriple h).2
  have hquad (b c d : UInt8) : isQuad b newline c d = false :=
    Bool.eq_false_iff.2 fun h => not_continues_newline (continues_of_isQuad h).1
  have hquad' (b c d : UInt8) : isQuad b c newline d = false :=
    Bool.eq_false_iff.2 fun h => not_continues_newline (continues_of_isQuad h).2.1
  have hquad'' (b c d : UInt8) : isQuad b c d newline = false :=
    Bool.eq_false_iff.2 fun h => not_continues_newline (continues_of_isQuad h).2.2
  -- At most three further bytes are looked at: the line break is one of them or lies behind them.
  match rest, behind with
  | [], [] => simp [leading, hpair]
  | [], [c] => simp [leading, hpair, htriple]
  | [], c :: d :: _ => simp [leading, hpair, htriple, hquad]
  | [c], [] => simp [leading, htriple']
  | [c], d :: _ => simp [leading, htriple', hquad']
  | [c, d], _ => simp [leading, hquad'']
  | c :: d :: e :: _, _ => rfl

/-- A character takes no more bytes than there are. -/
theorem le_length_of_leading {b : UInt8} {rest : List UInt8} {c : Char} {k : Nat}
    (h : leading b rest = some (c, k)) : k ≤ rest.length := by
  unfold leading at h
  split_ifs at h
  · cases h
    exact Nat.zero_le _
  · split at h
    · cases h
    all_goals
      split_ifs at h
      all_goals
        cases h
        simp

theorem decodeFrom_newline {skip : Nat} {bytes : List UInt8} (hskip : skip ≤ bytes.length)
    (behind : List UInt8) :
    decodeFrom skip (bytes ++ newline :: behind) =
      decodeFrom skip bytes ++ .char '\n' :: decodeFrom 0 behind := by
  induction bytes generalizing skip with
  | nil =>
    obtain rfl : skip = 0 := Nat.le_zero.1 hskip
    rfl
  | cons b bytes ih =>
    cases skip with
    | succ skip => exact ih (Nat.le_of_succ_le_succ hskip)
    | zero =>
      -- The bytes that the character takes are skipped, and all of them are in front of the break.
      rw [List.cons_append, decodeFrom, decodeFrom, leading_newline]
      cases h : leading b bytes with
      | none => exact congrArg (.stray b :: ·) (ih (Nat.zero_le _))
      | some found => exact congrArg (.char found.1 :: ·) (ih (le_length_of_leading h))

/-- The bytes in front of a line break decode on their own. -/
theorem ofBytes_newline (bytes behind : List UInt8) :
    ofBytes (bytes ++ newline :: behind) = ofBytes bytes ++ .char '\n' :: ofBytes behind :=
  decodeFrom_newline (Nat.zero_le _) behind

end Text

/-! ## Words -/

namespace Cursor

/-- The cursor with a line break and more text behind what is left. -/
def extend (c : Cursor) (behind : Text) : Cursor :=
  ⟨c.rest ++ .char '\n' :: behind, c.pos⟩

section Word

variable (c : Cursor) (behind : Text)

/-- A run ends in front of a line break as it does at the end. -/
theorem takeRun_extend {q : Glyph → Bool} (hq : q (.char '\n') = false) :
    (c.extend behind).takeRun q = ((c.takeRun q).1, (c.takeRun q).2.extend behind) := by
  obtain ⟨t, p⟩ := c
  have hsplit := List.takeWhile_append_dropWhile (p := q) (l := t)
  have hrun : ∀ g ∈ t.takeWhile q, q g := List.all_eq_true.1 List.all_takeWhile
  -- Behind the run stands the glyph that ended it, or the line break where the text has ended it.
  have hstop : ∀ g u, t.dropWhile q ++ .char '\n' :: behind = g :: u → q g = false := by
    intro g u h
    cases hdrop : t.dropWhile q with
    | nil =>
      rw [hdrop] at h
      cases h
      exact hq
    | cons g' u' =>
      have hhead := List.head?_dropWhile_not q t
      rw [hdrop] at h hhead
      cases h
      simpa using hhead
  have h := takeRun_append hrun hstop p
  rw [← List.append_assoc, hsplit] at h
  exact h

/-! The look-ahead sees NUL at the end and the line break in front of it, and takes neither for a
part of a word. Where something is left, it sees the same. -/

theorem ahead_extend_cons (g : Glyph) (t : Text) (p : Pos) :
    ahead (extend ⟨g :: t, p⟩ behind).rest = ahead (g :: t) := rfl

theorem drop1_extend_cons (g : Glyph) (t : Text) (p : Pos) :
    (extend ⟨g :: t, p⟩ behind).drop1 = (drop1 ⟨g :: t, p⟩).extend behind := rfl

theorem continuesNumber_newline : continuesNumber (.char '\n') = false := by
  decide

theorem scanMantissa_extend (first : Char) :
    scanMantissa first (c.extend behind) =
      ((scanMantissa first c).1, (scanMantissa first c).2.extend behind) := by
  unfold scanMantissa
  simp only [takeRun_extend _ _ continuesNumber_newline]
  by_cases hfirst : first = '.'
  · simp only [hfirst, if_true]
  · simp only [hfirst, if_false]
    -- A point behind the whole part is seen where something is left, and then in both texts.
    obtain ⟨_ | ⟨g, t⟩, p⟩ := (c.takeRun continuesNumber).2
    · rfl
    · simp only [ahead_extend_cons, drop1_extend_cons, takeRun_extend _ _ continuesNumber_newline]
      split <;> rfl

theorem scanSign_extend :
    scanSign (c.extend behind) = ((scanSign c).1, (scanSign c).2.extend behind) := by
  obtain ⟨_ | ⟨g, t⟩, p⟩ := c
  · rfl
  · unfold scanSign
    by_cases hsign : isSign (ahead (g :: t))
    · rw [ahead_extend_cons, drop1_extend_cons, if_pos hsign, if_pos hsign]
    · rw [ahead_extend_cons, if_neg hsign, if_neg hsign]

theorem scanExponent_extend :
    scanExponent (c.extend behind) = ((scanExponent c).1, (scanExponent c).2.extend behind) := by
  obtain ⟨_ | ⟨g, t⟩, p⟩ := c
  · rfl
  · simp only [scanExponent, ahead_extend_cons, drop1_extend_cons, scanSign_extend,
      takeRun_extend _ _ continuesNumber_newline]
    split
    · split <;> rfl
    · rfl

theorem scanNumber_extend (first : Char) :
    scanNumber first (c.extend behind) =
      ((scanNumber first c).1, (scanNumber first c).2.extend behind) := by
  simp only [scanNumber, scanMantissa_extend, scanExponent_extend]
  split <;> rfl

theorem scanName_extend (first : Char) :
    scanName first (c.extend behind) =
      ((scanName first c).1, (scanName first c).2.extend behind) := by
  simp only [scanName, takeRun_extend c behind (q := continuesName) (by decide)]
  rfl

/-- A word that no equals sign extends is told by its first character and one byte ahead. -/
theorem scanWord_of_not_equals {first : Char} {c : Cursor}
    (h : withEquals? first = none ∨ ∀ t, c.rest ≠ .char '=' :: t) :
    scanWord first c =
      match alone? first with
      | some tok => (.token ⟨tok, c.pos⟩, c)
      | none =>
        if (first = '.' && Text.isDecimalDigit (ahead c.rest)) || Text.isDecimalDigit first then
          scanNumber first c
        else if Text.isLetter first || first = '_' then scanName first c
        else (.fault ⟨.unexpectedChar first, c.pos⟩, c) := by
  unfold scanWord
  split
  · next hequals hrest =>
    rcases h with h | h
    · rw [h] at hequals
      cases hequals
    · exact absurd hrest (h _)
  · rfl

/-- A word is read in front of a line break as it is at the end. -/
theorem scanWord_extend (first : Char) :
    scanWord first (c.extend behind) =
      ((scanWord first c).1, (scanWord first c).2.extend behind) := by
  by_cases hequals : withEquals? first = none ∨ ∀ t, c.rest ≠ .char '=' :: t
  · -- The line break is no equals sign, so it does not make a word of two characters either.
    have hextend : withEquals? first = none ∨ ∀ t, (c.extend behind).rest ≠ .char '=' :: t := by
      refine hequals.imp_right fun h t => ?_
      obtain ⟨_ | ⟨g, u⟩, p⟩ := c
      · exact nofun
      · intro heq
        have hg : g = .char '=' := (List.cons.inj heq).1
        exact h u (by rw [hg])
    have hdigit : Text.isDecimalDigit (ahead (c.extend behind).rest) =
        Text.isDecimalDigit (ahead c.rest) := by
      obtain ⟨_ | ⟨g, t⟩, p⟩ := c <;> rfl
    rw [scanWord_of_not_equals hequals, scanWord_of_not_equals hextend, hdigit, scanNumber_extend,
      scanName_extend]
    split
    · rfl
    · split
      · rfl
      · split <;> rfl
  · push Not at hequals
    obtain ⟨hsome, t, hrest⟩ := hequals
    obtain ⟨tok, htok⟩ := Option.ne_none_iff_exists'.1 hsome
    obtain ⟨u, p⟩ := c
    subst hrest
    rw [scanWord_withEquals htok]
    exact scanWord_withEquals htok _ _

end Word

/-! ## Items -/

/-- What is skipped ends in front of a word. Where none is left, the line break is skipped too, be
it as a blank or as the end of a comment. -/
theorem skip_newline (inComment : Bool) (t : Text) (p : Pos) (behind : Text) :
    skip inComment (t ++ .char '\n' :: behind) p =
      if (skip inComment t p).rest = [] then
        skip false behind ((skip inComment t p).pos.advance (.char '\n'))
      else (skip inComment t p).extend behind := by
  fun_induction skip inComment t p with
  | case1 inComment p =>
    -- The line break ends a comment and is a blank outside of one: both go on without a comment.
    cases inComment <;> rfl
  | case2 t p g ih => exact ih
  | case3 inComment g t p hcomment hblank ih =>
    rw [List.cons_append, skip, if_neg hcomment, if_pos hblank]
    exact ih
  | case4 inComment t p hcomment hblank ih =>
    rw [List.cons_append, skip, if_neg hcomment, if_neg hblank, if_pos rfl]
    exact ih
  | case5 inComment g t p hcomment hblank hmark =>
    rw [List.cons_append, skip, if_neg hcomment, if_neg hblank, if_neg hmark,
      if_neg (List.cons_ne_nil g t)]
    rfl

theorem scan_of_skipBlanks_nil {c : Cursor} {p : Pos} (h : c.skipBlanks = ⟨[], p⟩) :
    c.scan = (none, ⟨[], p⟩) := by
  unfold scan
  rw [h]

theorem scan_of_skipBlanks_cons {c : Cursor} {g : Glyph} {t : Text} {p : Pos}
    (h : c.skipBlanks = ⟨g :: t, p⟩) :
    c.scan = (some (scanWord g.toChar ⟨t, p.advance g⟩).1,
      (scanWord g.toChar ⟨t, p.advance g⟩).2) := by
  unfold scan
  rw [h]

/-- The next item depends only on what is left behind blanks and comments. -/
theorem scan_congr {c d : Cursor} (h : c.skipBlanks = d.skipBlanks) : c.scan = d.scan := by
  unfold scan
  rw [h]

/-- An item in front of a line break is read as it is at the end. -/
theorem scan_extend_some {c c₁ : Cursor} {item : Item} (h : c.scan = (some item, c₁))
    (behind : Text) : (c.extend behind).scan = (some item, c₁.extend behind) := by
  have hskip : (c.extend behind).skipBlanks = _ := skip_newline false c.rest c.pos behind
  rcases hrest : c.skipBlanks with ⟨_ | ⟨g, t⟩, p⟩
  · rw [scan_of_skipBlanks_nil hrest] at h
    cases h
  · have hextend : (c.extend behind).skipBlanks = extend ⟨g :: t, p⟩ behind := by
      change skip false c.rest c.pos = _ at hrest
      rw [hskip, hrest, if_neg (List.cons_ne_nil g t)]
    have hword := scanWord_extend ⟨t, p.advance g⟩ behind g.toChar
    rw [scan_of_skipBlanks_cons hrest] at h
    cases h
    exact (scan_of_skipBlanks_cons hextend).trans
      (congrArg (fun r : Item × Cursor => (some r.1, r.2)) hword)

/-- Where no item is left in front of a line break, the next one is that of the text behind it. -/
theorem scan_extend_none {c c₁ : Cursor} (h : c.scan = (none, c₁)) (behind : Text) :
    (c.extend behind).scan = scan ⟨behind, c₁.pos.advance (.char '\n')⟩ := by
  have hskip : (c.extend behind).skipBlanks = _ := skip_newline false c.rest c.pos behind
  rcases hrest : c.skipBlanks with ⟨_ | ⟨g, t⟩, p⟩
  · rw [scan_of_skipBlanks_nil hrest] at h
    cases h
    change skip false c.rest c.pos = _ at hrest
    rw [hrest, if_pos rfl] at hskip
    exact scan_congr hskip
  · rw [scan_of_skipBlanks_cons hrest] at h
    cases h

theorem scanAll_congr {c d : Cursor} (h : c.scan = d.scan) : c.scanAll = d.scanAll := by
  rw [scanAll, scanAll, h]

/-- The items of a source that goes on behind a line break are those in front of it, as if the
source ended there, and then those of the rest. -/
theorem scanAll_newline (c : Cursor) (behind : Text) :
    (c.extend behind).scanAll.1 =
      c.scanAll.1 ++ (scanAll ⟨behind, c.scanAll.2.pos.advance (.char '\n')⟩).1 := by
  fun_induction scanAll c with
  | case1 c c₁ h =>
    rw [List.nil_append, scanAll_congr (scan_extend_none h behind)]
  | case2 c item c₁ h items final hfinal ih =>
    rw [scanAll_of_scan (scan_extend_some h behind), ih, hfinal]
    rfl

end Cursor

/-- What stands in front of a line break gives the first items of a source. -/
theorem Text.items_newline (source behind : Text) :
    ∃ more, (source ++ .char '\n' :: behind).items = source.items ++ more :=
  ⟨_, Cursor.scanAll_newline (.ofText source) behind⟩

/-! ## Expressions -/

/-- An error met among some items is not cured by further ones. -/
theorem Machine.run_append {m : Machine} {items : List Item} {failure : ExprFailure}
    (h : m.run items = .error failure) (hfailure : failure ≠ .incomplete) (more : List Item) :
    m.run (items ++ more) = .error failure := by
  fun_induction Machine.run m items with
  | case1 m =>
    -- The end of the items is no error, only a place to go on from.
    have hfinish := finish_spec m
    rw [h] at hfinish
    exact absurd hfinish.1 hfailure
  | case2 m f items => exact h
  | case3 m t items m₁ hstep ih =>
    rw [List.cons_append, run, hstep]
    exact ih h
  | case4 m t items failure hstep =>
    rw [List.cons_append, run, hstep]
    exact h

/-- A source that is wrong in itself stays so, for the same reason and at the same place, whatever
lines follow it. -/
theorem parseExpr_newline (filename : Text) {source : List UInt8} {d : Diagnostic}
    (h : parseExpr filename (Text.ofBytes source) = .error (.reported d)) (rest : List UInt8) :
    parseExpr filename (Text.ofBytes (source ++ Text.newline :: rest)) =
      .error (.reported d) := by
  obtain ⟨more, hitems⟩ := Text.items_newline (.ofBytes source) (.ofBytes rest)
  rw [Text.ofBytes_newline]
  cases hrun : Machine.start.run (Text.ofBytes source).items with
  | ok e =>
    rw [parseExpr_eq_ok.2 hrun] at h
    cases h
  | error failure =>
    have hfailure : failure ≠ .incomplete := by
      rintro rfl
      rw [parseExpr_eq_incomplete.2 hrun] at h
      cases h
    -- The parser stops at the same item, before it has seen any of the further ones.
    have happend := Machine.run_append hrun hfailure more
    rw [← hitems] at happend
    rw [parseExpr_eq_error filename happend, ← h, parseExpr_eq_error filename hrun]

/-- The first two bytes of a character of three are an error, which the third one on the next line
does not cure. -/
theorem parseExpr_newline_truncated :
    let source : List UInt8 := [0x28, 0x31, 0x20, 0xE2, 0x82]
    let d : Diagnostic := ⟨.lex, "input", ⟨1, 4⟩, some (.scan (.unexpectedChar '\uFFFD'))⟩
    parseExpr "input" (Text.ofBytes source) = .error (.reported d) ∧
      parseExpr "input" (Text.ofBytes (source ++ Text.newline :: [0xAC, 0x29])) =
        .error (.reported d) := by
  intro source d
  have hitems : (Text.ofBytes source).items =
      [.token ⟨.openParen, ⟨1, 1⟩⟩, .token ⟨.integer 1, ⟨1, 2⟩⟩,
        .fault ⟨.unexpectedChar '\uFFFD', ⟨1, 4⟩⟩, .fault ⟨.unexpectedChar '\uFFFD', ⟨1, 5⟩⟩] := by
    decide +kernel
  have hrun : Machine.start.run (Text.ofBytes source).items =
      .error (.scan ⟨.unexpectedChar '\uFFFD', ⟨1, 4⟩⟩) := by
    rw [hitems]
    rfl
  have h : parseExpr "input" (Text.ofBytes source) = .error (.reported d) :=
    parseExpr_eq_error "input" hrun
  exact ⟨h, parseExpr_newline "input" h [0xAC, 0x29]⟩

end ExprTyping
