import ExprTyping.Proofs.NumeralReading

/-!
# Lexemes

What a source is made of, said without the scanner: gaps between words, the texts of words, and the
place where a word stands.

- `Gap`: blanks and comments;
- `Numeral.Spelled`: the texts of a numeral with a point or an exponent;
- `Tok.SpelledBy`: the texts of a word, and `Tok.SpelledBy.unique`: a text spells one word only;
- `Pos.following`: the line and the column behind a text, counted from its line breaks.
-/

namespace ExprTyping

/-! ## Gaps -/

/-- Blanks and comments. A comment runs to the end of its line; only at the end of the source
(`final`) may its line break be missing. -/
inductive Gap : Bool → List Char → Prop
  | nil (final : Bool) : Gap final []
  | blank {final : Bool} {c : Char} {rest : List Char} :
      c ∈ [' ', '\t', '\r', '\n'] → Gap final rest → Gap final (c :: rest)
  | comment {final : Bool} {body rest : List Char} :
      '\n' ∉ body → Gap final rest → Gap final ('#' :: (body ++ '\n' :: rest))
  | unfinished {body : List Char} : '\n' ∉ body → Gap true ('#' :: body)

/-! ## Numerals with a point or an exponent -/

namespace Numeral

/-- The text of a point and the digits behind it, if there is a point. -/
inductive FractionText : List Char → List Char → Prop
  | absent : FractionText [] []
  | present (fraction : List Char) : FractionText ('.' :: fraction) fraction

/-- The text of an exponent, if there is one, with its sign and its digits. -/
inductive ExponentText : List Char → Bool → List Char → Prop
  | absent : ExponentText [] false []
  | unsigned {mark : Char} {ds : List Char} : mark = 'e' ∨ mark = 'E' → ds ≠ [] →
      ExponentText (mark :: ds) false ds
  | plus {mark : Char} {ds : List Char} : mark = 'e' ∨ mark = 'E' → ds ≠ [] →
      ExponentText (mark :: '+' :: ds) false ds
  | minus {mark : Char} {ds : List Char} : mark = 'e' ∨ mark = 'E' → ds ≠ [] →
      ExponentText (mark :: '-' :: ds) true ds

/-- The texts of a numeral with a point, an exponent or both. -/
def Spelled (cs : List Char) (n : Numeral) : Prop :=
  ∃ point exponent, cs = n.whole ++ (point ++ exponent) ∧ FractionText point n.fraction ∧
    ExponentText exponent n.exponentNeg n.exponent ∧ (point ≠ [] ∨ exponent ≠ [])

/-- The text with a zero in front of a leading point. -/
def zeroBeforePoint : List Char → List Char
  | '.' :: cs => '0' :: '.' :: cs
  | cs => cs

theorem zeroBeforePoint_cons {first : Char} (h : first ≠ '.') (cs : List Char) :
    zeroBeforePoint (first :: cs) = first :: cs := by
  simp [zeroBeforePoint, h]

theorem zeroBeforePoint_append (first : Char) (u v : List Char) :
    zeroBeforePoint (first :: u ++ v) = zeroBeforePoint (first :: u) ++ v := by
  by_cases hfirst : first = '.'
  · subst hfirst
    rfl
  · rw [List.cons_append, zeroBeforePoint_cons hfirst, zeroBeforePoint_cons hfirst, List.cons_append]

/-- A text of digits only has no point in front. -/
theorem zeroBeforePoint_of_digits {cs : List Char} (h : ∀ c ∈ zeroBeforePoint cs, c.isDigit) :
    zeroBeforePoint cs = cs := by
  unfold zeroBeforePoint at h ⊢
  split
  · exact absurd (h '.' (by simp)) (by decide)
  · rfl

/-- A run of digits ends at the first character that is none. -/
theorem digits_append_inj {ds es u v : List Char} (hds : ∀ c ∈ ds, c.isDigit)
    (hes : ∀ c ∈ es, c.isDigit) (hu : ∀ c ∈ u.head?, c.isDigit = false)
    (hv : ∀ c ∈ v.head?, c.isDigit = false) (h : ds ++ u = es ++ v) : ds = es ∧ u = v := by
  induction ds generalizing es with
  | nil =>
    cases es with
    | nil => exact ⟨rfl, h⟩
    | cons e es =>
      rw [List.nil_append] at h
      have hdigit := hes e (List.mem_cons_self ..)
      rw [hu e (by simp [h])] at hdigit
      cases hdigit
  | cons d ds ih =>
    cases es with
    | nil =>
      rw [List.nil_append] at h
      have hdigit := hds d (List.mem_cons_self ..)
      rw [hv d (by simp [← h])] at hdigit
      cases hdigit
    | cons e es =>
      obtain ⟨rfl, htail⟩ := List.cons.inj h
      obtain ⟨rfl, rfl⟩ := ih (List.forall_mem_cons.1 hds).2 (List.forall_mem_cons.1 hes).2 htail
      exact ⟨rfl, rfl⟩

section Unique

variable {es ds ds' : List Char} {neg neg' : Bool}

theorem ExponentText.head (h : ExponentText es neg ds) : ∀ c ∈ es.head?, c = 'e' ∨ c = 'E' := by
  intro c hc
  cases h with
  | absent => cases hc
  | unsigned hmark => cases hc; exact hmark
  | plus hmark => cases hc; exact hmark
  | minus hmark => cases hc; exact hmark

theorem ExponentText.head_not_digit (h : ExponentText es neg ds) :
    ∀ c ∈ es.head?, c.isDigit = false := by
  intro c hc
  rcases h.head c hc with rfl | rfl <;> decide

theorem ExponentText.ne_point (h : ExponentText es neg ds) (t : List Char) : es ≠ '.' :: t := by
  rintro rfl
  rcases h.head '.' rfl with he | he <;> revert he <;> decide

theorem ExponentText.unique (hds : ∀ c ∈ ds, c.isDigit) (hds' : ∀ c ∈ ds', c.isDigit)
    (h : ExponentText es neg ds) (h' : ExponentText es neg' ds') : neg = neg' ∧ ds = ds' := by
  -- A sign is no digit, so the forms exclude each other.
  have hplus : ¬ '+'.isDigit := by decide
  have hminus : ¬ '-'.isDigit := by decide
  cases h <;> cases h' <;> simp_all

/-- What stands behind the digits in front starts with none. -/
theorem head_not_digit {point fraction : List Char} (hpoint : FractionText point fraction)
    (h : ExponentText es neg ds) : ∀ c ∈ (point ++ es).head?, c.isDigit = false := by
  cases hpoint with
  | absent => exact h.head_not_digit
  | present =>
    intro c hc
    cases hc
    decide

end Unique

/-- A text is that of one numeral only. -/
theorem Spelled.unique {cs : List Char} {n n' : Numeral} (hn : n.IsPlain) (hn' : n'.IsPlain)
    (h : Spelled cs n) (h' : Spelled cs n') : n = n' := by
  obtain ⟨whole, fraction, neg, ds⟩ := n
  obtain ⟨whole', fraction', neg', ds'⟩ := n'
  obtain ⟨point, es, rfl, hpoint, hexp, -⟩ := h
  obtain ⟨point', es', htext, hpoint', hexp', -⟩ := h'
  -- The texts are compared from the front: digits, then the point, then the exponent.
  obtain ⟨hwhole, htail⟩ := digits_append_inj hn.whole hn'.whole (head_not_digit hpoint hexp)
    (head_not_digit hpoint' hexp') htext
  have hparts : fraction = fraction' ∧ es = es' := by
    cases hpoint with
    | absent =>
      cases hpoint' with
      | absent => exact ⟨rfl, htail⟩
      | present =>
        -- A point cannot start an exponent.
        exact absurd htail (hexp.ne_point _)
    | present =>
      cases hpoint' with
      | absent => exact absurd htail.symm (hexp'.ne_point _)
      | present =>
        obtain ⟨-, hrest⟩ := List.cons.inj htail
        exact digits_append_inj hn.fraction hn'.fraction hexp.head_not_digit hexp'.head_not_digit
          hrest
  obtain ⟨rfl, rfl⟩ := hparts
  obtain ⟨rfl, rfl⟩ := hexp.unique hn.exponent hn'.exponent hexp'
  obtain rfl : whole = whole' := hwhole
  rfl

/-- A point or the mark of an exponent is no digit. -/
theorem Spelled.exists_not_digit {cs : List Char} {n : Numeral} (h : Spelled cs n) :
    ∃ c ∈ cs, c.isDigit = false := by
  obtain ⟨point, es, rfl, hpoint, hexp, hne⟩ := h
  have hhead := head_not_digit hpoint hexp
  cases htail : point ++ es with
  | nil =>
    rw [List.append_eq_nil_iff] at htail
    exact absurd htail (by rw [not_and_or]; exact hne)
  | cons c t =>
    rw [htail] at hhead
    exact ⟨c, by simp, hhead c rfl⟩

end Numeral

/-! ## Words -/

/-- Whether a text is made like a name: a letter or an underscore in front, and of the ASCII
characters only letters, digits and underscores behind it. -/
def IsNameText : List Char → Prop
  | [] => False
  | first :: more => startsName first ∧ ∀ c ∈ more, c.toNat < 128 → c.isAlphanum ∨ c = '_'

theorem IsNameText.head {cs : List Char} (h : IsNameText cs) : cs.head?.any startsName := by
  cases cs with
  | nil => exact h.elim
  | cons first more => exact h.1

theorem startsName_not_numeric {c : Char} (h : startsName c) : c.isDigit = false ∧ c ≠ '.' := by
  refine ⟨?_, ?_⟩
  · by_contra hdigit
    rw [Bool.not_eq_false] at hdigit
    have hnot := forall_isDigit (q := fun c => !startsName c) (by decide) hdigit
    simp [h] at hnot
  · rintro rfl
    revert h
    decide

namespace Tok

/-- The signs and keywords, each of which is one fixed text. -/
def fixed : List Tok :=
  [.plus, .minus, .times, .divide, .comma, .openParen, .closeParen, .openBracket, .closeBracket,
    .and, .or, .not, .eq, .ge, .gt, .le, .lt, .ne]

/-- Whether a text spells a word. A sign or a keyword is spelled by its name, and the sign `!=` also
as `~=`. Any other text that is made like a name is one, and a numeral has its value. -/
def SpelledBy (cs : List Char) : Tok → Prop
  | .ident name => name = Text.ofChars cs ∧ IsNameText cs ∧ ∀ tok ∈ fixed, cs ≠ tok.kind.toList
  | .integer n => cs ≠ [] ∧ (∀ c ∈ cs, c.isDigit) ∧ n.toInt = Numeral.natOfDigits cs
  | .real x => ∃ n : Numeral, n.IsPlain ∧ Numeral.Spelled (Numeral.zeroBeforePoint cs) n ∧
      n.value = x ∧ x.isInfinite = false
  | tok => cs = tok.kind.toList ∨ tok = .ne ∧ cs = "~=".toList

variable {cs : List Char} {tok : Tok}

theorem spelledBy_fixed (h : tok ∈ fixed) :
    SpelledBy cs tok ↔ cs = tok.kind.toList ∨ tok = .ne ∧ cs = "~=".toList := by
  cases tok with
  | real x => simp [fixed] at h
  | integer n => simp [fixed] at h
  | ident name => simp [fixed] at h
  | _ => rfl

/-- What tells the kinds of words apart: the texts of signs and keywords, and otherwise how a text
starts and whether it has digits only. -/
inductive Family where
  | fixed
  | integer
  | real
  | name
  deriving DecidableEq

/-- The kind of a word. -/
def family : Tok → Family
  | .integer _ => .integer
  | .real _ => .real
  | .ident _ => .name
  | _ => .fixed

/-- The kind of word that a text can spell. -/
def familyOf (cs : List Char) : Family :=
  if cs ∈ "~=".toList :: fixed.map (·.kind.toList) then .fixed
  else if cs.all Char.isDigit then .integer
  else if cs.head?.any fun c => c.isDigit || c = '.' then .real
  else .name

theorem mem_fixed_of_family (h : tok.family = .fixed) : tok ∈ fixed := by
  cases tok with
  | real x => cases h
  | integer n => cases h
  | ident name => cases h
  | _ => decide

/-- No sign and no keyword starts like a numeral. -/
theorem notMem_fixed {c : Char} {t : List Char} (h : c.isDigit ∨ c = '.') :
    c :: t ∉ "~=".toList :: fixed.map (·.kind.toList) := by
  have hall : ("~=".toList :: fixed.map (·.kind.toList)).all fun cs =>
      !cs.head?.any fun c => c.isDigit || c == '.' := by
    decide
  intro hmem
  have hnot : c.isDigit = false ∧ c ≠ '.' := by simpa using List.all_eq_true.1 hall _ hmem
  simp [hnot] at h

theorem SpelledBy.exists_head {x : Binary64} (h : SpelledBy cs (.real x)) :
    ∃ c t, cs = c :: t ∧ (c.isDigit ∨ c = '.') := by
  obtain ⟨n, hplain, hspelled, -, -⟩ := h
  unfold Numeral.zeroBeforePoint at hspelled
  split at hspelled
  · exact ⟨_, _, rfl, .inr rfl⟩
  · obtain ⟨point, es, hcs, -⟩ := hspelled
    obtain ⟨c, t, hwhole⟩ := List.exists_cons_of_ne_nil hplain.whole_ne_nil
    have hdigit := hplain.whole c (by simp [hwhole])
    exact ⟨c, t ++ (point ++ es), by rw [hcs, hwhole, List.cons_append], .inl hdigit⟩

theorem SpelledBy.exists_not_digit {x : Binary64} (h : SpelledBy cs (.real x)) :
    ∃ c ∈ cs, c.isDigit = false := by
  obtain ⟨n, -, hspelled, -, -⟩ := h
  unfold Numeral.zeroBeforePoint at hspelled
  split at hspelled
  · exact ⟨'.', by simp, by decide⟩
  · exact hspelled.exists_not_digit

theorem SpelledBy.family_eq (h : SpelledBy cs tok) : tok.family = familyOf cs := by
  unfold familyOf
  cases hfamily : tok.family with
  | fixed =>
    have hmem := mem_fixed_of_family hfamily
    rw [if_pos]
    rcases (spelledBy_fixed hmem).1 h with rfl | ⟨-, rfl⟩
    · exact List.mem_cons_of_mem _ (List.mem_map_of_mem hmem)
    · exact List.mem_cons_self ..
  | integer =>
    cases tok <;> cases hfamily
    obtain ⟨hne, hdigits, -⟩ := h
    obtain ⟨c, t, rfl⟩ := List.exists_cons_of_ne_nil hne
    rw [if_neg (notMem_fixed (.inl (hdigits c (List.mem_cons_self ..)))),
      if_pos (List.all_eq_true.2 hdigits)]
  | real =>
    -- It starts like an integer, but has a character that is no digit.
    cases tok <;> cases hfamily
    obtain ⟨c, t, rfl, hc⟩ := h.exists_head
    obtain ⟨b, hb, hnot⟩ := h.exists_not_digit
    rw [if_neg (notMem_fixed hc), if_neg, if_pos (by simpa using hc)]
    intro hall
    rw [List.all_eq_true.1 hall b hb] at hnot
    cases hnot
  | name =>
    cases tok <;> cases hfamily
    obtain ⟨-, hname, hkeyword⟩ := h
    cases cs with
    | nil => cases hname
    | cons first more =>
      obtain ⟨hdigit, hpoint⟩ := startsName_not_numeric hname.1
      -- The second spelling of `!=` is the only fixed text that is not excluded by name.
      have htilde : first :: more ≠ "~=".toList := by
        intro heq
        cases heq
        exact absurd hname.1 (by decide)
      rw [if_neg, if_neg (by simp [hdigit]), if_neg (by simp [hdigit, hpoint])]
      rw [List.mem_cons, List.mem_map]
      rintro (heq | ⟨tok, htok, heq⟩)
      · exact htilde heq
      · exact hkeyword tok htok heq.symm

/-- A text spells one word only. -/
theorem SpelledBy.unique {a b : Tok} (ha : SpelledBy cs a) (hb : SpelledBy cs b) : a = b := by
  have hfamily : a.family = b.family := ha.family_eq.trans hb.family_eq.symm
  -- Only words of one family are left to compare.
  cases hcase : b.family with
  | fixed =>
    have hamem := mem_fixed_of_family (hfamily.trans hcase)
    have hbmem := mem_fixed_of_family hcase
    have hkind : ∀ a ∈ fixed, ∀ b ∈ fixed, a.kind.toList = b.kind.toList → a = b := by decide
    have htilde : ∀ a ∈ fixed, a.kind.toList ≠ "~=".toList := by decide
    rcases (spelledBy_fixed hamem).1 ha with rfl | ⟨rfl, rfl⟩
    · rcases (spelledBy_fixed hbmem).1 hb with heq | ⟨-, heq⟩
      · exact hkind a hamem b hbmem heq
      · exact absurd heq (htilde a hamem)
    · rcases (spelledBy_fixed hbmem).1 hb with heq | ⟨rfl, -⟩
      · exact absurd heq.symm (htilde b hbmem)
      · rfl
  | integer =>
    rw [hcase] at hfamily
    cases a <;> cases hfamily
    cases b <;> cases hcase
    rw [Int64.toInt_inj.1 (ha.2.2.trans hb.2.2.symm)]
  | real =>
    rw [hcase] at hfamily
    cases a <;> cases hfamily
    cases b <;> cases hcase
    obtain ⟨n, hplain, hspelled, rfl, -⟩ := ha
    obtain ⟨n', hplain', hspelled', rfl, -⟩ := hb
    rw [hspelled.unique hplain hplain' hspelled']
  | name =>
    rw [hcase] at hfamily
    cases a <;> cases hfamily
    cases b <;> cases hcase
    rw [ha.1, hb.1]

end Tok

/-! ## Places -/

namespace Pos

/-- The place of a word behind a text: its line is one more than the number of line breaks before
it, and its column one more than the number of characters behind the last of them. -/
def following (before : List Char) : Pos :=
  ⟨1 + before.count '\n', 1 + (before.reverse.takeWhile (· ≠ '\n')).length⟩

theorem after_append (p : Pos) (t u : Text) : p.after (t ++ u) = (p.after t).after u :=
  List.foldl_append

theorem after_ofChars_append (p : Pos) (u v : List Char) :
    p.after (Text.ofChars (u ++ v)) = (p.after (Text.ofChars u)).after (Text.ofChars v) := by
  rw [Text.ofChars, List.map_append]
  exact after_append p (Text.ofChars u) (Text.ofChars v)

/-- A position reached by reading lies one column in front of the next word. -/
theorem after_start (before : List Char) :
    start.after (Text.ofChars before) =
      ⟨(following before).line, (following before).column - 1⟩ := by
  induction before using List.reverseRecOn with
  | nil => rfl
  | append_singleton cs c ih =>
    rw [after_ofChars_append, ih]
    change advance _ (.char c) = _
    unfold advance following
    dsimp only
    by_cases hc : c = '\n'
    · -- A line break counts as one more line and leaves no character behind it.
      subst hc
      have hlines : (cs ++ ['\n']).count '\n' = cs.count '\n' + 1 := by simp
      have hcolumns : ((cs ++ ['\n']).reverse.takeWhile (· ≠ '\n')).length = 0 := by simp
      rw [if_pos rfl, hlines, hcolumns, Pos.mk.injEq]
      exact ⟨by omega, rfl⟩
    · simp [hc]

/-- A word that does not start with a line break stands at the place that its first character has
been read to. -/
theorem advance_after {before : List Char} {c : Char} (h : c ≠ '\n') :
    (start.after (Text.ofChars before)).advance (.char c) = following before := by
  have hglyph : ¬ Glyph.char c = .char '\n' := fun heq => h (Glyph.char.inj heq)
  rw [after_start, advance, if_neg hglyph]
  dsimp only
  rw [Int.sub_add_cancel]

end Pos

end ExprTyping
