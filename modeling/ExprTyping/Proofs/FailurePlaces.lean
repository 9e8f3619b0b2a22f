import ExprTyping.Proofs.Decoding
import ExprTyping.Proofs.FirstFailure
import ExprTyping.Proofs.Lexemes
import ExprTyping.Proofs.LineEnds
import ExprTyping.Session.Basic

/-!
# Where failures are reported

Every failure of a check is met at a glyph of the source: at the first glyph of a word, or at the
last one read of a numeral that is refused. No word holds a line break, so this glyph is none. Its
line is therefore one of the lines of the source, and its column is at least 1.

- `Pos.IsPlaceIn`: the positions of glyphs that are no line breaks;
- `Cursor.isPlaceIn_scanAll`: every item of a source has such a position;
- `Machine.isPlaced_run`: an expression that is read has them at all its nodes, and no empty place;
- `Text.count_ofBytes_le`: decoding makes no line breaks;
- `Session.check_outcomes`: the outcomes of a check.
-/

namespace ExprTyping

/-! ## Places in a source -/

namespace Pos

/-- Whether a position is that of a glyph in a source, other than a line break. -/
def IsPlaceIn (source : Text) (p : Pos) : Prop :=
  ∃ front g back, source = front ++ g :: back ∧ g ≠ .char '\n' ∧ p = (start.after front).advance g

theorem advance_of_ne {g : Glyph} (h : g ≠ .char '\n') (p : Pos) :
    p.advance g = ⟨p.line, p.column + 1⟩ :=
  if_neg h

/-- Every line break that is read leads to the next line. -/
theorem line_after (p : Pos) (t : Text) :
    (p.after t).line = p.line + (t.count (.char '\n') : Nat) := by
  induction t generalizing p with
  | nil => exact (Int.add_zero p.line).symm
  | cons g t ih =>
    show ((p.advance g).after t).line = _
    rw [ih]
    by_cases hg : g = .char '\n'
    · rw [hg, List.count_cons_self]
      show p.line + 1 + (t.count (.char '\n') : Nat) = _
      omega
    · rw [advance_of_ne hg, List.count_cons_of_ne hg]

theorem column_after {p : Pos} (h : 0 ≤ p.column) (t : Text) : 0 ≤ (p.after t).column := by
  induction t generalizing p with
  | nil => exact h
  | cons g t ih =>
    refine ih (p := p.advance g) ?_
    unfold advance
    split
    · exact Int.le_refl 0
    · exact Int.le_add_one h

/-- The lines of a source are counted from 1 on, and there is one more of them than line breaks. -/
theorem IsPlaceIn.line_mem {source : Text} {p : Pos} (h : p.IsPlaceIn source) :
    1 ≤ p.line ∧ p.line ≤ 1 + (source.count (.char '\n') : Nat) := by
  obtain ⟨front, g, back, rfl, hg, rfl⟩ := h
  have hline : ((start.after front).advance g).line = 1 + (front.count (.char '\n') : Nat) := by
    rw [advance_of_ne hg, line_after]
    rfl
  rw [hline, List.count_append]
  omega

theorem IsPlaceIn.one_le_column {source : Text} {p : Pos} (h : p.IsPlaceIn source) :
    1 ≤ p.column := by
  obtain ⟨front, g, back, -, hg, rfl⟩ := h
  have hfront : 0 ≤ (start.after front).column := column_after (Int.le_refl 0) front
  rw [advance_of_ne hg]
  show 1 ≤ (start.after front).column + 1
  omega

end Pos

/-! ## Line breaks in bytes -/

namespace Text

section Wide

variable {b c d e : UInt8}

theorem wide_of_isPair (h : isPair b c) : 128 ≤ b.toNat % 0x20 * 0x40 + payload c := by
  simp only [isPair, Bool.and_eq_true, between_iff] at h
  have hb : 0xC2 ≤ b.toNat ∧ b.toNat ≤ 0xDF := h.1
  omega

theorem wide_of_isTriple (h : isTriple b c d) :
    128 ≤ (b.toNat % 0x10 * 0x40 + payload c) * 0x40 + payload d := by
  simp only [isTriple, Bool.and_eq_true] at h
  replace h := h.1
  split_ifs at h with hlow hhigh
  · -- The second byte rules out the numbers that have a shorter form.
    have hc : 0xA0 ≤ c.toNat ∧ c.toNat ≤ 0xBF := between_iff.1 h
    have hpayload : payload c = c.toNat % 0x40 := rfl
    omega
  · have hb : b.toNat = 0xED := congrArg UInt8.toNat (eq_of_beq hhigh)
    omega
  · have hb : 0xE1 ≤ b.toNat ∧ b.toNat ≤ 0xEF := between_iff.1 (Bool.and_eq_true_iff.1 h).1
    omega

theorem wide_of_isQuad (h : isQuad b c d e) :
    128 ≤ ((b.toNat % 0x08 * 0x40 + payload c) * 0x40 + payload d) * 0x40 + payload e := by
  simp only [isQuad, Bool.and_eq_true] at h
  replace h := h.1.1
  split_ifs at h with hlow hhigh
  · have hc : 0x90 ≤ c.toNat ∧ c.toNat ≤ 0xBF := between_iff.1 h
    have hpayload : payload c = c.toNat % 0x40 := rfl
    omega
  · have hb : b.toNat = 0xF4 := congrArg UInt8.toNat (eq_of_beq hhigh)
    omega
  · have hb : 0xF1 ≤ b.toNat ∧ b.toNat ≤ 0xF3 := between_iff.1 (Bool.and_eq_true_iff.1 h).1
    omega

end Wide

/-- A character of several bytes has a number above those of the single bytes. -/
theorem exists_wide_of_leading {b : UInt8} {rest : List UInt8} {x : Char} {k : Nat}
    (hb : ¬ b < 0x80) (h : leading b rest = some (x, k)) : ∃ v, 128 ≤ v ∧ x = Char.ofNat v := by
  unfold leading at h
  rw [if_neg hb] at h
  split at h
  · cases h
  · split_ifs at h with hpair
    cases h
    exact ⟨_, wide_of_isPair hpair, rfl⟩
  · split_ifs at h with hpair htriple
    · cases h
      exact ⟨_, wide_of_isPair hpair, rfl⟩
    · cases h
      exact ⟨_, wide_of_isTriple htriple, rfl⟩
  · split_ifs at h with hpair htriple hquad
    · cases h
      exact ⟨_, wide_of_isPair hpair, rfl⟩
    · cases h
      exact ⟨_, wide_of_isTriple htriple, rfl⟩
    · cases h
      exact ⟨_, wide_of_isQuad hquad, rfl⟩

theorem eq_of_ofNat_eq_newline {v : Nat} (h : Char.ofNat v = '\n') : v = 10 := by
  by_cases hvalid : v.isValidChar
  · have hchar : Char.ofNat v = Char.ofNatAux v hvalid := dif_pos hvalid
    rw [hchar] at h
    exact congrArg Char.toNat h
  · -- A number that stands for no character gives the character 0.
    have hchar : Char.ofNat v = Char.ofNat 0 := dif_neg hvalid
    rw [hchar] at h
    exact absurd h (by decide)

/-- Only one byte decodes to a line break. -/
theorem eq_newline_of_leading {b : UInt8} {rest : List UInt8} {k : Nat}
    (h : leading b rest = some ('\n', k)) : b = newline := by
  by_cases hb : b < 0x80
  · unfold leading at h
    rw [if_pos hb, Option.some.injEq, Prod.mk.injEq] at h
    exact UInt8.toNat_inj.1 (eq_of_ofNat_eq_newline h.1)
  · obtain ⟨v, hv, hchar⟩ := exists_wide_of_leading hb h
    have hten := eq_of_ofNat_eq_newline hchar.symm
    omega

theorem count_decodeFrom_le (skip : Nat) (bytes : List UInt8) :
    (decodeFrom skip bytes).count (.char '\n') ≤ bytes.count newline := by
  fun_induction decodeFrom skip bytes with
  | case1 => exact Nat.le_refl 0
  | case2 b rest k ih => exact Nat.le_trans ih List.count_le_count_cons
  | case3 b rest c k hleading ih =>
    by_cases hc : c = '\n'
    · obtain rfl : b = newline := eq_newline_of_leading (hc ▸ hleading)
      rw [hc, List.count_cons_self, List.count_cons_self]
      exact Nat.succ_le_succ ih
    · rw [List.count_cons_of_ne fun hglyph => hc (Glyph.char.inj hglyph)]
      exact Nat.le_trans ih List.count_le_count_cons
  | case4 b rest hleading ih => exact Nat.le_trans ih List.count_le_count_cons

/-- Decoding makes no line breaks. -/
theorem count_ofBytes_le (bytes : List UInt8) :
    (ofBytes bytes).count (.char '\n') ≤ bytes.count newline :=
  count_decodeFrom_le 0 bytes

end Text

/-! ## Items -/

/-- Where an item is reported. -/
def Item.pos : Item → Pos
  | .token t => t.pos
  | .fault f => f.pos

namespace Cursor

/-- Whether a cursor stands in a source, with what is behind its position left to read. -/
def IsIn (source : Text) (c : Cursor) : Prop :=
  ∃ front, source = front ++ c.rest ∧ c.pos = Pos.start.after front

/-- Whether reading on from the first cursor leads to the second one over no line break. -/
def Passes (c d : Cursor) : Prop :=
  ∃ run, .char '\n' ∉ run ∧ c.rest = run ++ d.rest ∧ d.pos = c.pos.after run

theorem isIn_ofText (source : Text) : (ofText source).IsIn source :=
  ⟨[], rfl, rfl⟩

theorem IsIn.advance {source : Text} {g : Glyph} {t : Text} {p : Pos}
    (h : IsIn source ⟨g :: t, p⟩) : IsIn source ⟨t, p.advance g⟩ := by
  obtain ⟨front, hsource, hpos⟩ := h
  refine ⟨front ++ [g], by rw [List.append_assoc]; exact hsource, ?_⟩
  rw [Pos.after_append, ← hpos]
  rfl

theorem IsIn.of_passes {source : Text} {c d : Cursor} (h : c.IsIn source) (hd : c.Passes d) :
    d.IsIn source := by
  obtain ⟨front, hsource, hpos⟩ := h
  obtain ⟨run, -, hrest, hend⟩ := hd
  refine ⟨front ++ run, by rw [hsource, hrest, List.append_assoc], ?_⟩
  rw [hend, hpos, Pos.after_append]

/-- A glyph that is no line break, and what can be read behind it on its line. -/
theorem IsIn.isPlaceIn {source : Text} {g : Glyph} {t : Text} {p : Pos} {d : Cursor}
    (h : IsIn source ⟨g :: t, p⟩) (hg : g ≠ .char '\n') (hd : Passes ⟨t, p.advance g⟩ d) :
    d.pos.IsPlaceIn source := by
  obtain ⟨front, hsource, hpos⟩ := h
  obtain ⟨run, hrun, hrest, hend⟩ := hd
  dsimp only at hsource hpos hrest hend
  -- The glyph read last is the first one, or the last one of the run.
  rcases List.eq_nil_or_concat run with rfl | ⟨more, last, rfl⟩
  · exact ⟨front, g, t, hsource, hg, by rw [hend, hpos]; rfl⟩
  · rw [List.concat_eq_append] at hrun hrest hend
    refine ⟨front ++ g :: more, last, d.rest, ?_, ?_, ?_⟩
    · rw [hsource, hrest]
      simp
    · rintro rfl
      exact hrun (List.mem_append_right _ List.mem_cons_self)
    · rw [hend, hpos, Pos.after_append, Pos.after_append]
      rfl

namespace Passes

theorem refl (c : Cursor) : c.Passes c :=
  ⟨[], List.not_mem_nil, rfl, rfl⟩

theorem trans {c d e : Cursor} (hd : c.Passes d) (he : d.Passes e) : c.Passes e := by
  obtain ⟨run, hrun, hrest, hpos⟩ := hd
  obtain ⟨more, hmore, hrest', hpos'⟩ := he
  refine ⟨run ++ more, ?_, by rw [hrest, hrest', List.append_assoc], ?_⟩
  · rw [List.mem_append, not_or]
    exact ⟨hrun, hmore⟩
  · rw [hpos', hpos, Pos.after_append]

end Passes

theorem passes_takeRun {q : Glyph → Bool} (hq : q (.char '\n') = false) (c : Cursor) :
    c.Passes (c.takeRun q).2 := by
  refine ⟨c.rest.takeWhile q, fun hmem => ?_, List.takeWhile_append_dropWhile.symm, rfl⟩
  have hholds : q (.char '\n') := List.all_eq_true.1 List.all_takeWhile _ hmem
  rw [hq] at hholds
  cases hholds

theorem passes_drop1 {c : Cursor} (h : ahead c.rest ≠ '\n') : c.Passes c.drop1 := by
  obtain ⟨_ | ⟨g, t⟩, p⟩ := c
  · exact .refl _
  · refine ⟨[g], ?_, rfl, rfl⟩
    rw [List.mem_singleton]
    rintro rfl
    exact h (show aheadOf (.char '\n') = '\n' by decide)

theorem passes_scanMantissa (first : Char) (c : Cursor) : c.Passes (scanMantissa first c).2 := by
  have hrun (c : Cursor) : c.Passes (c.takeRun continuesNumber).2 :=
    passes_takeRun continuesNumber_newline c
  unfold scanMantissa
  split
  · exact hrun c
  · dsimp only
    split
    · next hpoint =>
      -- The look-ahead has seen a point, so the glyph that is dropped is no line break.
      have hdrop : (c.takeRun continuesNumber).2.Passes (c.takeRun continuesNumber).2.drop1 :=
        passes_drop1 (by rw [hpoint]; decide)
      exact ((hrun c).trans hdrop).trans (hrun _)
    · exact hrun c

theorem passes_scanSign (c : Cursor) : c.Passes (scanSign c).2 := by
  unfold scanSign
  split
  · next hsign =>
    refine passes_drop1 fun hnewline => ?_
    rw [hnewline] at hsign
    exact absurd hsign (by decide)
  · exact .refl c

theorem passes_scanExponent (c : Cursor) : c.Passes (scanExponent c).2 := by
  unfold scanExponent
  split
  · next hmark =>
    have hdrop : c.Passes c.drop1 := by
      refine passes_drop1 fun hnewline => ?_
      rw [hnewline] at hmark
      exact absurd hmark (by decide)
    have hdigits := passes_takeRun continuesNumber_newline (scanSign c.drop1).2
    have hall := (hdrop.trans (passes_scanSign c.drop1)).trans hdigits
    dsimp only
    split
    · exact hall
    · exact hall
  · exact .refl c

/-- Where a word ends and where it is reported: both on the line of its first character. -/
def StaysOnLine (c : Cursor) (result : Item × Cursor) : Prop :=
  c.Passes result.2 ∧ ∃ d, c.Passes d ∧ result.1.pos = d.pos

theorem staysOnLine_scanNumber (first : Char) (c : Cursor) :
    c.StaysOnLine (scanNumber first c) := by
  have hall := (passes_scanMantissa first c).trans (passes_scanExponent (scanMantissa first c).2)
  unfold scanNumber
  dsimp only
  split
  · exact ⟨hall, c, .refl c, rfl⟩
  · exact ⟨hall, _, hall, rfl⟩

theorem staysOnLine_scanWord (first : Char) (c : Cursor) : c.StaysOnLine (scanWord first c) := by
  have hhere : ∃ d, c.Passes d ∧ c.pos = d.pos := ⟨c, .refl c, rfl⟩
  unfold scanWord
  split
  · next hrest =>
    refine ⟨⟨[.char '='], by decide, hrest, rfl⟩, hhere⟩
  · split
    · exact ⟨.refl c, hhere⟩
    · split
      · exact staysOnLine_scanNumber first c
      · split
        · exact ⟨passes_takeRun (by decide) c, hhere⟩
        · exact ⟨.refl c, hhere⟩

theorem IsIn.skip {source : Text} {t : Text} {p : Pos} (h : IsIn source ⟨t, p⟩)
    (inComment : Bool) : (skip inComment t p).IsIn source := by
  induction t generalizing inComment p with
  | nil => exact h
  | cons g t ih =>
    rw [Cursor.skip]
    split_ifs
    · exact ih h.advance _
    · exact ih h.advance _
    · exact ih h.advance _
    · exact h

/-- Skipping ends in front of a word, which does not start with a line break. -/
theorem ne_newline_of_skip {inComment : Bool} {t rest : Text} {p q : Pos} {g : Glyph}
    (h : Cursor.skip inComment t p = ⟨g :: rest, q⟩) : g ≠ .char '\n' := by
  induction t generalizing inComment p with
  | nil => cases h
  | cons first t ih =>
    rw [Cursor.skip] at h
    split_ifs at h with hcomment hseparator hhash
    · exact ih h
    · exact ih h
    · exact ih h
    · cases h
      rintro rfl
      exact hseparator (by decide)

/-- Reading an item: it has a place in the source, and reading goes on in the source. -/
theorem IsIn.scan {source : Text} {c behind : Cursor} {item : Item} (h : c.IsIn source)
    (hscan : c.scan = (some item, behind)) : item.pos.IsPlaceIn source ∧ behind.IsIn source := by
  rcases hskip : c.skipBlanks with ⟨_ | ⟨g, t⟩, p⟩
  · rw [scan_of_skipBlanks_nil hskip] at hscan
    cases hscan
  · rw [scan_of_skipBlanks_cons hskip] at hscan
    cases hscan
    have hin : IsIn source ⟨g :: t, p⟩ := hskip ▸ IsIn.skip h false
    obtain ⟨hbehind, d, hd, hpos⟩ := staysOnLine_scanWord g.toChar ⟨t, p.advance g⟩
    refine ⟨?_, hin.advance.of_passes hbehind⟩
    rw [hpos]
    exact hin.isPlaceIn (ne_newline_of_skip hskip) hd

/-- Every item that is read has a place in the source. -/
theorem isPlaceIn_scanAll {source : Text} {c : Cursor} (h : c.IsIn source) :
    ∀ item ∈ c.scanAll.1, item.pos.IsPlaceIn source := by
  fun_induction scanAll c with
  | case1 c behind hscan => exact List.forall_mem_nil _
  | case2 c item behind hscan items final hall ih =>
    obtain ⟨hitem, hbehind⟩ := h.scan hscan
    rw [hall] at ih
    exact List.forall_mem_cons.2 ⟨hitem, ih hbehind⟩

end Cursor

theorem Text.isPlaceIn_items (source : Text) :
    ∀ item ∈ source.items, item.pos.IsPlaceIn source :=
  Cursor.isPlaceIn_scanAll (Cursor.isIn_ofText source)

/-! ## Expressions -/

section Placed

variable {P : Pos → Prop}

/-- Whether an expression has no empty place, and all its nodes have positions of a kind. -/
structure Expr.IsPlaced (P : Pos → Prop) (e : Expr) : Prop where
  /-- No place is empty. -/
  complete : e.isComplete
  /-- The positions of the nodes. -/
  nodes : ∀ n ∈ e.postOrder, P n.pos

namespace Expr

theorem isPlaced_lit {p : Pos} (hp : P p) (l : Literal) : (Expr.lit p l).IsPlaced P :=
  ⟨rfl, List.forall_mem_singleton.2 hp⟩

theorem isPlaced_sym {p : Pos} (hp : P p) (name : Text) : (Expr.sym p name).IsPlaced P :=
  ⟨rfl, List.forall_mem_singleton.2 hp⟩

theorem isPlaced_call {p : Pos} (hp : P p) (op : Op) {args : List Expr}
    (hargs : ∀ e ∈ args, e.IsPlaced P) : (Expr.call p op args).IsPlaced P := by
  -- Both facts about the arguments go along their list, so one induction gives them.
  have hall : allComplete args ∧ ∀ n ∈ postOrderAll args, P n.pos := by
    induction args with
    | nil => exact ⟨rfl, List.forall_mem_nil _⟩
    | cons e args ih =>
      obtain ⟨he, hrest⟩ := List.forall_mem_cons.1 hargs
      obtain ⟨hcomplete, hnodes⟩ := ih hrest
      rw [allComplete, postOrderAll, he.complete, Bool.true_and]
      exact ⟨hcomplete, List.forall_mem_append.2 ⟨he.nodes, hnodes⟩⟩
  refine ⟨hall.1, ?_⟩
  rw [postOrder]
  exact List.forall_mem_append.2 ⟨hall.2, List.forall_mem_singleton.2 hp⟩

theorem isPlaced_call₁ {p : Pos} (hp : P p) (op : Op) {e : Expr} (he : e.IsPlaced P) :
    (Expr.call p op [e]).IsPlaced P :=
  isPlaced_call hp op (List.forall_mem_singleton.2 he)

theorem isPlaced_call₂ {p : Pos} (hp : P p) (op : Op) {l r : Expr} (hl : l.IsPlaced P)
    (hr : r.IsPlaced P) : (Expr.call p op [l, r]).IsPlaced P :=
  isPlaced_call hp op (List.forall_mem_cons.2 ⟨hl, List.forall_mem_singleton.2 hr⟩)

theorem IsPlaced.negated {p : Pos} (hp : P p) {e : Expr} (he : e.IsPlaced P) :
    (e.negated p).IsPlaced P := by
  cases e with
  | lit _ l => exact isPlaced_lit hp _
  | _ => exact isPlaced_call₁ hp _ he

end Expr

/-- Whether the parts of an unfinished expression have positions of a kind. -/
def Frame.IsPlaced (P : Pos → Prop) : Frame → Prop
  | .paren => True
  | .negation p => P p
  | .complement p => P p
  | .binary _ _ p left => P p ∧ left.IsPlaced P

namespace Machine

/-- Whether all that was read so far has positions of a kind. -/
def IsPlaced (P : Pos → Prop) : Machine → Prop
  | .wanting stack => ∀ f ∈ stack, f.IsPlaced P
  | .having stack operand => (∀ f ∈ stack, f.IsPlaced P) ∧ operand.IsPlaced P

theorem isPlaced_stepWanting {stack : Stack} {t : Token} {m : Machine}
    (hstack : ∀ f ∈ stack, f.IsPlaced P) (ht : P t.pos) (h : stepWanting stack t = .ok m) :
    m.IsPlaced P := by
  unfold stepWanting at h
  split at h
  · cases h
    exact List.forall_mem_cons.2 ⟨ht, hstack⟩
  · cases h
    exact List.forall_mem_cons.2 ⟨ht, hstack⟩
  · cases h
    exact List.forall_mem_cons.2 ⟨trivial, hstack⟩
  · cases h
    exact ⟨hstack, Expr.isPlaced_lit ht _⟩
  · cases h
    exact ⟨hstack, Expr.isPlaced_lit ht _⟩
  · cases h
    exact ⟨hstack, Expr.isPlaced_sym ht _⟩
  · cases h

theorem isPlaced_stepHaving {stack : Stack} {operand : Expr} {t : Token} {m : Machine}
    (hstack : ∀ f ∈ stack, f.IsPlaced P) (hoperand : operand.IsPlaced P) (ht : P t.pos)
    (h : stepHaving stack operand t = .ok m) : m.IsPlaced P := by
  fun_induction stepHaving stack operand t with
  | case1 stack operand t op priority hext waiting hstarts =>
    have hwaiting : ∀ f ∈ waiting, f.IsPlaced P := List.forall_mem_cons.2 ⟨⟨ht, hoperand⟩, hstack⟩
    exact isPlaced_stepWanting hwaiting ht h
  | case2 stack operand t op priority hext waiting hstarts =>
    cases h
    exact List.forall_mem_cons.2 ⟨⟨ht, hoperand⟩, hstack⟩
  | case3 operand t hext => cases h
  | case4 operand t outer hclose hext =>
    cases h
    exact ⟨(List.forall_mem_cons.1 hstack).2, hoperand⟩
  | case5 operand t outer hclose hext => cases h
  -- The innermost frame is completed, and its expression is the operand of the next one.
  | case6 operand t pos outer hext ih =>
    obtain ⟨hpos, houter⟩ := List.forall_mem_cons.1 hstack
    exact ih houter (hoperand.negated hpos) ht h
  | case7 operand t pos outer hext ih =>
    obtain ⟨hpos, houter⟩ := List.forall_mem_cons.1 hstack
    exact ih houter (Expr.isPlaced_call₁ hpos _ hoperand) ht h
  | case8 operand t op priority pos left outer hext ih =>
    obtain ⟨⟨hpos, hleft⟩, houter⟩ := List.forall_mem_cons.1 hstack
    exact ih houter (Expr.isPlaced_call₂ hpos _ hleft hoperand) ht h

theorem isPlaced_step {m next : Machine} {t : Token} (hm : m.IsPlaced P) (ht : P t.pos)
    (h : m.step t = .ok next) : next.IsPlaced P := by
  cases m with
  | wanting stack => exact isPlaced_stepWanting hm ht h
  | having stack operand => exact isPlaced_stepHaving hm.1 hm.2 ht h

theorem isPlaced_close {stack : Stack} {operand e : Expr} (hstack : ∀ f ∈ stack, f.IsPlaced P)
    (hoperand : operand.IsPlaced P) (h : close stack operand = .ok e) : e.IsPlaced P := by
  fun_induction close stack operand with
  | case1 operand =>
    cases h
    exact hoperand
  | case2 operand outer => cases h
  | case3 operand pos outer ih =>
    obtain ⟨hpos, houter⟩ := List.forall_mem_cons.1 hstack
    exact ih houter (hoperand.negated hpos) h
  | case4 operand pos outer ih =>
    obtain ⟨hpos, houter⟩ := List.forall_mem_cons.1 hstack
    exact ih houter (Expr.isPlaced_call₁ hpos _ hoperand) h
  | case5 operand op priority pos left outer ih =>
    obtain ⟨⟨hpos, hleft⟩, houter⟩ := List.forall_mem_cons.1 hstack
    exact ih houter (Expr.isPlaced_call₂ hpos _ hleft hoperand) h

theorem isPlaced_finish {m : Machine} {e : Expr} (hm : m.IsPlaced P) (h : m.finish = .ok e) :
    e.IsPlaced P := by
  cases m with
  | wanting stack => cases h
  | having stack operand => exact isPlaced_close hm.1 hm.2 h

/-- An expression that is read has the positions of its words, and no place of it is empty. -/
theorem isPlaced_run {m : Machine} {items : List Item} {e : Expr} (hm : m.IsPlaced P)
    (hitems : ∀ item ∈ items, P item.pos) (h : m.run items = .ok e) : e.IsPlaced P := by
  fun_induction run m items with
  | case1 m => exact isPlaced_finish hm h
  | case2 m f items => cases h
  | case3 m t items next hstep ih =>
    obtain ⟨ht, hrest⟩ := List.forall_mem_cons.1 hitems
    exact ih (isPlaced_step hm ht hstep) hrest h
  | case4 m t items failure hstep => cases h

/-- A failure of reading has the position of the item at which reading stopped. -/
theorem exists_item_of_run {m : Machine} {items : List Item} {failure : ExprFailure}
    (h : m.run items = .error failure) :
    failure = .incomplete ∨ (∃ f, failure = .scan f ∧ .fault f ∈ items) ∨
      ∃ error t, failure = .misplaced error t.pos ∧ .token t ∈ items := by
  have hverdict := m.verdict_run items
  rw [h] at hverdict
  cases failure with
  | incomplete => exact .inl rfl
  | scan f =>
    obtain ⟨ts, more, rfl, -⟩ := hverdict
    exact .inr (.inl ⟨f, rfl, List.mem_append_right _ List.mem_cons_self⟩)
  | misplaced error pos =>
    obtain ⟨ts, t, more, rfl, rfl, -⟩ := hverdict
    exact .inr (.inr ⟨error, t, rfl, List.mem_append_right _ List.mem_cons_self⟩)

end Machine

end Placed

/-! ## Checks -/

/-- Whether a diagnostic names a source and a place on one of its lines. The source is given by its
bytes. -/
structure Diagnostic.IsPlacedIn (filename : Text) (bytes : List UInt8) (d : Diagnostic) : Prop where
  filename_eq : d.filename = filename
  one_le_line : 1 ≤ d.pos.line
  line_le : d.pos.line ≤ 1 + (bytes.count Text.newline : Nat)
  one_le_column : 1 ≤ d.pos.column

theorem Diagnostic.isPlacedIn_of_isPlaceIn {filename : Text} {bytes : List UInt8} {d : Diagnostic}
    (hname : d.filename = filename) (h : d.pos.IsPlaceIn (Text.ofBytes bytes)) :
    d.IsPlacedIn filename bytes := by
  have hcount := Text.count_ofBytes_le bytes
  obtain ⟨hlow, hhigh⟩ := h.line_mem
  exact ⟨hname, hlow, by omega, h.one_le_column⟩

theorem isPlaced_of_parseExpr {filename source : Text} {e : Expr}
    (h : parseExpr filename source = .ok e) : e.IsPlaced (Pos.IsPlaceIn source) :=
  Machine.isPlaced_run (m := .start) (List.forall_mem_nil _) source.isPlaceIn_items
    (parseExpr_eq_ok.1 h)

/-- A source that cannot be read is unfinished, or it is reported by the scanner or the reader at a
place in it. -/
theorem parseExpr_cases (filename source : Text) :
    (∃ e, parseExpr filename source = .ok e) ∨ parseExpr filename source = .error .incomplete ∨
      ∃ d, parseExpr filename source = .error (.reported d) ∧ d.filename = filename ∧
        d.pos.IsPlaceIn source ∧ (d.stage = .lex ∨ d.stage = .parse) ∧ d.typeError? = none := by
  cases hrun : Machine.start.run source.items with
  | ok e => exact .inl ⟨e, parseExpr_eq_ok.2 hrun⟩
  | error failure =>
    rw [parseExpr_eq_error filename hrun]
    right
    -- The diagnostic has the place of the item at which reading stopped.
    rcases Machine.exists_item_of_run hrun with rfl | ⟨f, rfl, hf⟩ | ⟨error, t, rfl, ht⟩
    · exact .inl rfl
    · exact .inr ⟨_, rfl, rfl, source.isPlaceIn_items _ hf, .inl rfl, rfl⟩
    · exact .inr ⟨_, rfl, rfl, source.isPlaceIn_items _ ht, .inr rfl, rfl⟩

/-- Inference over an expression that was read reports a typing error at one of its nodes. -/
theorem ofInfer_of_parseExpr {filename source : Text} {e : Expr} {env : Env Binary64}
    {dom : Domain Binary64} {f : InferFault Binary64} (hparse : parseExpr filename source = .ok e)
    (hinfer : infer env dom e = .error f) :
    (Diagnostic.ofInfer filename f).filename = filename ∧
      (Diagnostic.ofInfer filename f).pos.IsPlaceIn source ∧
      (Diagnostic.ofInfer filename f).stage = .type ∧
      ∃ error, (Diagnostic.ofInfer filename f).typeError? = some error := by
  have hplaced := isPlaced_of_parseExpr hparse
  obtain ⟨before, n, after, error, hnodes, -, -, -, rfl⟩ :=
    infer_firstFailure e f hplaced.complete hinfer
  refine ⟨rfl, hplaced.nodes n ?_, rfl, error, rfl⟩
  rw [hnodes]
  exact List.mem_append_right _ List.mem_cons_self

namespace Session

theorem check_of_parseExpr_error {filename source : Text} {failure : CheckFailure}
    (h : parseExpr filename source = .error failure) (s : Session) :
    s.check filename source = .error (.ofCheck failure) := by
  unfold check checkSource
  rw [h]
  rfl

theorem check_of_parseExpr_ok {filename source : Text} {e : Expr}
    (h : parseExpr filename source = .ok e) (s : Session) :
    s.check filename source =
      (infer s.env s.domain e).mapError fun f => .reported (.ofInfer filename f) := by
  unfold check checkSource
  rw [h]
  show Except.mapError _ (Except.mapError _ (infer s.env s.domain e)) = _
  cases infer s.env s.domain e with
  | ok t => rfl
  | error f => rfl

/-- A check of a source ends in one of three ways: it finds the typed expression, or the source is
unfinished, or there is a diagnostic that names the source and a place on one of its lines. In a
diagnostic of the type stage, an expression was read and a typing error is the cause. In one of the
lex and parse stages there is no typing error: no expression was read, and no session whatsoever
could have typed one. -/
theorem check_outcomes (s : Session) (filename : Text) (bytes : List UInt8) :
    let source := Text.ofBytes bytes
    (∃ t e, s.check filename source = .ok t ∧ parseExpr filename source = .ok e ∧
        infer s.env s.domain e = .ok t) ∨
      (s.check filename source = .error .incomplete ∧
        parseExpr filename source = .error .incomplete) ∨
      ∃ d, s.check filename source = .error (.reported d) ∧ d.IsPlacedIn filename bytes ∧
        ((d.stage = .type ∧ (∃ error, d.typeError? = some error) ∧
            ∃ e, parseExpr filename source = .ok e) ∨
          ((d.stage = .lex ∨ d.stage = .parse) ∧ d.typeError? = none ∧
            parseExpr filename source = .error (.reported d) ∧
            ∀ other : Session, other.check filename source = .error (.reported d))) := by
  intro source
  rcases parseExpr_cases filename source with
    ⟨e, hparse⟩ | hparse | ⟨d, hparse, hname, hplace, hstage, hnone⟩
  · have hcheck := check_of_parseExpr_ok hparse s
    cases hinfer : infer s.env s.domain e with
    | ok t =>
      rw [hinfer] at hcheck
      exact .inl ⟨t, e, hcheck, hparse, hinfer⟩
    | error f =>
      rw [hinfer] at hcheck
      obtain ⟨hname, hplace, hstage, herror⟩ := ofInfer_of_parseExpr hparse hinfer
      have hplaced := Diagnostic.isPlacedIn_of_isPlaceIn hname hplace
      exact .inr (.inr ⟨_, hcheck, hplaced, .inl ⟨hstage, herror, e, hparse⟩⟩)
  · exact .inr (.inl ⟨check_of_parseExpr_error hparse s, hparse⟩)
  · have hcheck (other : Session) := check_of_parseExpr_error hparse other
    have hplaced := Diagnostic.isPlacedIn_of_isPlaceIn hname hplace
    exact .inr (.inr ⟨d, hcheck s, hplaced, .inr ⟨hstage, hnone, hparse, hcheck⟩⟩)

end Session

end ExprTyping
