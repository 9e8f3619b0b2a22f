import Mathlib.Data.List.Forall2
import ExprTyping.Token.Scan

/-!
# Reading words one by one

A text is read word by word if its words are separated by blanks or delimiters: what a word gives
does not depend on the words around it. `Reads w toks` says that the text `w` gives the words `toks`
in front of a blank, a delimiter or the end.

- `Reads.join`: texts joined by blanks give their words in order;
- `Reads.append`: a text may stand directly in front of one that starts with a delimiter;
- `reads_alone` and `reads_withEquals`: signs;
- `Reads.sign`: a sign may stand directly in front of a word;
- `reads_name`: runs of name characters;
- `reads_of_items`: a text that is read as the name it spells is such a run.
-/

namespace ExprTyping

open Cursor

/-! ## One item at a time -/

namespace Cursor

theorem scanAll_of_scan {c behind : Cursor} {item : Item} (h : c.scan = (some item, behind)) :
    c.scanAll.1 = item :: behind.scanAll.1 := by
  rw [scanAll]
  split
  · next h' =>
    rw [h] at h'
    cases h'
  · next h' =>
    rw [h] at h'
    cases h'
    rfl

theorem scanAll_of_none {c behind : Cursor} (h : c.scan = (none, behind)) : c.scanAll.1 = [] := by
  rw [scanAll]
  split
  · rfl
  · next h' =>
    rw [h] at h'
    cases h'

theorem scanAll_nil (p : Pos) : (scanAll ⟨[], p⟩).1 = [] :=
  scanAll_of_none rfl

/-- The first item of a text. -/
theorem exists_scanWord_of_scanAll {c : Cursor} {item : Item} {items : List Item}
    (h : c.scanAll.1 = item :: items) :
    ∃ g t p behind, c.skipBlanks.rest = g :: t ∧ scanWord g.toChar ⟨t, p⟩ = (item, behind) := by
  rcases hscan : c.scan with ⟨_ | found, behind⟩
  · rw [scanAll_of_none hscan] at h
    cases h
  · rw [scanAll_of_scan hscan] at h
    obtain ⟨rfl, -⟩ := List.cons.inj h
    unfold scan at hscan
    dsimp only at hscan
    split at hscan
    · cases hscan
    · next g t hrest =>
      obtain ⟨hitem, hbehind⟩ := Prod.mk.inj hscan
      exact ⟨g, t, _, behind, hrest, Prod.ext (Option.some.inj hitem) hbehind⟩

/-- A blank in front changes only positions. -/
theorem scan_blank (t : Text) (p : Pos) :
    scan ⟨.char ' ' :: t, p⟩ = scan ⟨t, p.advance (.char ' ')⟩ := rfl

theorem scanAll_blank (t : Text) (p : Pos) :
    scanAll ⟨.char ' ' :: t, p⟩ = scanAll ⟨t, p.advance (.char ' ')⟩ := by
  rw [scanAll, scanAll, scan_blank]

/-- A word that starts right away. -/
theorem scan_cons {g : Glyph} {t : Text} {p : Pos} (hblank : isSeparator g = false)
    (hcomment : g ≠ .char '#') :
    scan ⟨g :: t, p⟩ =
      (some (scanWord g.toChar ⟨t, p.advance g⟩).1, (scanWord g.toChar ⟨t, p.advance g⟩).2) := by
  have hskip : skipBlanks ⟨g :: t, p⟩ = ⟨g :: t, p⟩ := by
    simp [skipBlanks, skip, hblank, hcomment]
  unfold scan
  rw [hskip]

end Cursor

/-- The characters that end every word in front of them. -/
def delimiters : List Char :=
  [' ', ',', '(', ')', '[', ']']

/-- Whether a word ends in front of this text: at its end or at a delimiter. -/
def Ends (tail : Text) : Prop :=
  tail = [] ∨ ∃ c ∈ delimiters, ∃ t, tail = .char c :: t

theorem ends_cons {c : Char} (h : c ∈ delimiters) (t : Text) : Ends (.char c :: t) :=
  .inr ⟨c, h, t, rfl⟩

/-- Whether the text `w` gives the words `toks`, wherever it ends. -/
def Reads (w : Text) (toks : List Tok) : Prop :=
  ∀ (tail : Text) (p : Pos), Ends tail → ∃ (ts : List Token) (behind : Pos),
    ts.map Token.tok = toks ∧
      (scanAll ⟨w ++ tail, p⟩).1 = ts.map .token ++ (scanAll ⟨tail, behind⟩).1

/-- A text that starts with a word, behind which the rest is read. -/
theorem Reads.cons {g : Glyph} {t w : Text} {tok : Tok} {toks : List Tok}
    (hblank : isSeparator g = false) (hcomment : g ≠ .char '#')
    (hword : ∀ (tail : Text) (p : Pos), Ends tail → ∃ behind,
      scanWord g.toChar ⟨t ++ tail, p⟩ = (.token ⟨tok, p⟩, ⟨w ++ tail, behind⟩))
    (hrest : Reads w toks) : Reads (g :: t) (tok :: toks) := by
  intro tail p htail
  obtain ⟨q, hq⟩ := hword tail (p.advance g) htail
  obtain ⟨ts, behind, htoks, hitems⟩ := hrest tail q htail
  have hscan : scan ⟨g :: t ++ tail, p⟩ = (some (.token ⟨tok, p.advance g⟩), ⟨w ++ tail, q⟩) := by
    rw [List.cons_append, scan_cons hblank hcomment, hq]
  refine ⟨⟨tok, p.advance g⟩ :: ts, behind, by rw [List.map_cons, htoks], ?_⟩
  rw [scanAll_of_scan hscan, hitems]
  rfl

theorem reads_nil : Reads [] [] := by
  intro tail p _
  exact ⟨[], p, rfl, rfl⟩

/-- A text that is one word. -/
theorem Reads.single {g : Glyph} {t : Text} {tok : Tok} (hblank : isSeparator g = false)
    (hcomment : g ≠ .char '#')
    (hword : ∀ (tail : Text) (p : Pos), Ends tail → ∃ behind,
      scanWord g.toChar ⟨t ++ tail, p⟩ = (.token ⟨tok, p⟩, ⟨tail, behind⟩)) :
    Reads (g :: t) [tok] :=
  Reads.cons (w := []) hblank hcomment hword reads_nil

/-- Texts joined by blanks give their words in order. -/
theorem Reads.join {ws : List Text} {toks : List (List Tok)} (h : List.Forall₂ Reads ws toks) :
    Reads (Text.join " " ws) toks.flatten := by
  induction h with
  | nil => exact reads_nil
  | @cons w ts ws tss hw hws ih =>
    cases hws with
    | nil =>
      rw [List.flatten_cons, List.flatten_nil, List.append_nil]
      exact hw
    | @cons w' ts' ws tss hw' hws =>
      intro tail p htail
      -- The blank in front of the second text ends the first one.
      have hjoin : Text.join " " (w :: w' :: ws) ++ tail =
          w ++ .char ' ' :: (Text.join " " (w' :: ws) ++ tail) := by
        rw [Text.join, List.append_assoc, List.append_assoc]
        rfl
      obtain ⟨us, q, hus, hfirst⟩ := hw (.char ' ' :: (Text.join " " (w' :: ws) ++ tail)) p
        (ends_cons (by decide) _)
      obtain ⟨vs, behind, hvs, hrest⟩ := ih tail (q.advance (.char ' ')) htail
      refine ⟨us ++ vs, behind, ?_, ?_⟩
      · rw [List.map_append, hus, hvs, ← List.flatten_cons]
      · rw [hjoin, hfirst, scanAll_blank, hrest, List.map_append, List.append_assoc]

/-- A text may stand directly in front of one that starts with a delimiter. -/
theorem Reads.append {c : Char} {u v : Text} {us vs : List Tok} (hu : Reads u us)
    (hc : c ∈ delimiters) (hv : Reads (.char c :: v) vs) : Reads (u ++ .char c :: v) (us ++ vs) := by
  intro tail p htail
  obtain ⟨ts, q, hts, hfirst⟩ := hu (.char c :: v ++ tail) p (ends_cons hc _)
  obtain ⟨rs, behind, hrs, hrest⟩ := hv tail q htail
  refine ⟨ts ++ rs, behind, by rw [List.map_append, hts, hrs], ?_⟩
  rw [List.append_assoc, hfirst, hrest, List.map_append, List.append_assoc]

/-- A blank in front of a text is skipped. -/
theorem Reads.blank {w : Text} {toks : List Tok} (h : Reads w toks) :
    Reads (.char ' ' :: w) toks := by
  intro tail p htail
  rw [List.cons_append, scanAll_blank]
  exact h tail _ htail

/-- The items of a text that is read word by word. -/
theorem Reads.items {w : Text} {toks : List Tok} (h : Reads w toks) :
    ∃ ts : List Token, ts.map Token.tok = toks ∧ w.items = ts.map .token := by
  obtain ⟨ts, behind, htoks, hitems⟩ := h [] .start (.inl rfl)
  rw [List.append_nil, scanAll_nil, List.append_nil] at hitems
  exact ⟨ts, htoks, hitems⟩

/-! ## Signs -/

theorem scanWord_alone {c : Char} {tok : Tok} (h : alone? c = some tok) {t : Text} {p : Pos}
    (hequals : withEquals? c = none ∨ Ends t) :
    scanWord c ⟨t, p⟩ = (.token ⟨tok, p⟩, ⟨t, p⟩) := by
  unfold scanWord
  split
  · -- An equals sign would have to follow.
    next h₁ h₂ =>
    dsimp only at h₂
    rcases hequals with hnone | rfl | ⟨d, hd, u, rfl⟩
    · rw [hnone] at h₁
      cases h₁
    · cases h₂
    · cases h₂
      exact absurd hd (by decide)
  · rw [h]

/-- A sign that is one character. -/
theorem reads_alone {c : Char} {tok : Tok} (h : alone? c = some tok)
    (hblank : isSeparator (.char c) = false) (hcomment : c ≠ '#') : Reads [.char c] [tok] :=
  Reads.single hblank (fun hc => hcomment (Glyph.char.inj hc)) fun _ p htail =>
    ⟨p, scanWord_alone h (.inr htail)⟩

theorem scanWord_withEquals {c : Char} {tok : Tok} (h : withEquals? c = some tok) (t : Text)
    (p : Pos) :
    scanWord c ⟨.char '=' :: t, p⟩ = (.token ⟨tok, p⟩, ⟨t, p.advance (.char '=')⟩) := by
  unfold scanWord
  rw [h]
  rfl

/-- A sign that ends in an equals sign. -/
theorem reads_withEquals {c : Char} {tok : Tok} (h : withEquals? c = some tok)
    (hblank : isSeparator (.char c) = false) (hcomment : c ≠ '#') :
    Reads [.char c, .char '='] [tok] := by
  refine Reads.single hblank (fun hc => hcomment (Glyph.char.inj hc)) fun tail p _ => ?_
  exact ⟨p.advance (.char '='), scanWord_withEquals h tail p⟩

/-- A sign that no equals sign can extend may stand directly in front of a word. -/
theorem Reads.sign {c : Char} {tok : Tok} {w : Text} {toks : List Tok} (halone : alone? c = some tok)
    (hequals : withEquals? c = none) (hblank : isSeparator (.char c) = false) (hcomment : c ≠ '#')
    (h : Reads w toks) : Reads (.char c :: w) (tok :: toks) := by
  refine Reads.cons hblank (fun hc => hcomment (Glyph.char.inj hc)) (fun tail p _ => ⟨p, ?_⟩) h
  exact scanWord_alone halone (.inl hequals)

theorem Reads.minus {w : Text} {toks : List Tok} (h : Reads w toks) :
    Reads (.char '-' :: w) (.minus :: toks) :=
  h.sign rfl rfl (by decide) (by decide)

/-! ## Runs -/

theorem takeRun_append {p : Glyph → Bool} {run tail : Text} (hrun : ∀ g ∈ run, p g)
    (htail : ∀ g t, tail = g :: t → p g = false) (pos : Pos) :
    takeRun p ⟨run ++ tail, pos⟩ = (Text.toChars run, ⟨tail, pos.after run⟩) := by
  have htake : tail.takeWhile p = [] := by
    cases tail with
    | nil => rfl
    | cons g t => rw [List.takeWhile_cons_of_neg (by simp [htail g t rfl])]
  have hdrop : tail.dropWhile p = tail := by
    cases tail with
    | nil => rfl
    | cons g t => rw [List.dropWhile_cons_of_neg (by simp [htail g t rfl])]
  unfold takeRun
  rw [List.takeWhile_append_of_pos hrun, List.dropWhile_append_of_pos hrun, htake, hdrop,
    List.append_nil]

theorem Ends.stops {p : Glyph → Bool} (hp : delimiters.all fun c => !p (.char c)) {tail : Text}
    (h : Ends tail) : ∀ g t, tail = g :: t → p g = false := by
  rcases h with rfl | ⟨c, hc, u, rfl⟩
  · intro g t hnil
    cases hnil
  · intro g t hcons
    cases hcons
    simpa using List.all_eq_true.1 hp c hc

theorem toChars_ofChars (cs : List Char) : Text.toChars (Text.ofChars cs) = cs := by
  unfold Text.toChars Text.ofChars
  rw [List.map_map]
  exact List.map_id cs

theorem ofChars_injective {cs ds : List Char} (h : Text.ofChars cs = Text.ofChars ds) : cs = ds := by
  rw [← toChars_ofChars cs, h, toChars_ofChars]

theorem forall_ofChars {p : Glyph → Bool} {cs : List Char} (h : ∀ c ∈ cs, p (.char c)) :
    ∀ g ∈ Text.ofChars cs, p g := by
  intro g hg
  obtain ⟨c, hc, rfl⟩ := List.mem_map.1 hg
  exact h c hc

/-! ## Names -/

/-- Whether a character starts a name. -/
def startsName (c : Char) : Bool :=
  Text.isLetter c || c = '_'

theorem withEquals?_of_startsName {c : Char} (h : startsName c) : withEquals? c = none := by
  unfold withEquals?
  split <;> first | rfl | exact absurd h (by decide)

theorem alone?_of_startsName {c : Char} (h : startsName c) : alone? c = none := by
  unfold alone?
  split <;> first | rfl | exact absurd h (by decide)

theorem isSeparator_of_startsName {c : Char} (h : startsName c) :
    isSeparator (.char c) = false := by
  by_contra hsep
  simp only [isSeparator, Glyph.char.injEq, Bool.not_eq_false, Bool.or_eq_true,
    decide_eq_true_eq] at hsep
  rcases hsep with ((rfl | rfl) | rfl) | rfl <;> exact absurd h (by decide)

theorem scanWord_name {c : Char} (h : startsName c) (hdigit : Text.isDecimalDigit c = false)
    (t : Text) (p : Pos) : scanWord c ⟨t, p⟩ = scanName c ⟨t, p⟩ := by
  have hpoint : c ≠ '.' := by
    rintro rfl
    exact absurd h (by decide)
  unfold scanWord
  rw [withEquals?_of_startsName h, alone?_of_startsName h]
  unfold startsName at h
  simp [hpoint, hdigit, h]

/-- A run of name characters. -/
theorem reads_name {first : Char} {more : List Char} (hfirst : startsName first)
    (hdigit : Text.isDecimalDigit first = false) (hmore : ∀ c ∈ more, continuesName (.char c)) :
    Reads (Text.ofChars (first :: more)) [nameTok (Text.ofChars (first :: more))] := by
  refine Reads.single (isSeparator_of_startsName hfirst) ?_ fun tail p htail => ?_
  · rintro heq
    cases heq
    exact absurd hfirst (by decide)
  · refine ⟨p.after (Text.ofChars more), ?_⟩
    have hrun := takeRun_append (forall_ofChars hmore) (htail.stops (by decide)) p
    change scanWord first ⟨Text.ofChars more ++ tail, p⟩ = _
    rw [scanWord_name hfirst hdigit]
    unfold scanName
    rw [hrun, toChars_ofChars]

theorem withEquals?_ne_ident (c : Char) (name : Text) : withEquals? c ≠ some (.ident name) := by
  unfold withEquals?
  split <;> exact nofun

theorem alone?_ne_ident (c : Char) (name : Text) : alone? c ≠ some (.ident name) := by
  unfold alone?
  split <;> exact nofun

/-- A numeral is read as a real or as an integer. -/
theorem numberTok_cases {plain : Bool} {m : Mantissa} {e : Exponent} {tok : Tok}
    (h : numberTok plain m e = .ok tok) :
    (∃ n, realTok n = .ok tok) ∨ ∃ digits, integerTok digits = .ok tok := by
  cases e with
  | malformed read => cases h
  | present neg digits =>
    rw [numberTok] at h
    split at h
    · exact .inl ⟨_, h⟩
    · cases h
  | absent =>
    rw [numberTok] at h
    split at h <;> split at h
    · exact .inl ⟨_, h⟩
    · cases h
    · exact .inr ⟨_, h⟩
    · cases h

theorem numberTok_ne_ident (plain : Bool) (m : Mantissa) (e : Exponent) (name : Text) :
    numberTok plain m e ≠ .ok (.ident name) := by
  intro h
  obtain ⟨n, hreal⟩ | ⟨digits, hinteger⟩ := numberTok_cases h
  · unfold realTok at hreal
    split at hreal <;> cases hreal
  · unfold integerTok at hinteger
    dsimp only at hinteger
    split at hinteger <;> cases hinteger

theorem eq_of_nameTok {t name : Text} (h : nameTok t = .ident name) : t = name := by
  unfold nameTok at h
  split at h
  · cases h
  · split at h
    · cases h
    · split at h
      · cases h
      · exact Tok.ident.inj h

/-- Only a run of name characters gives a name. -/
theorem scanWord_ident {first : Char} {c behind : Cursor} {name : Text} {q : Pos}
    (h : scanWord first c = (.token ⟨.ident name, q⟩, behind)) :
    startsName first ∧ Text.isDecimalDigit first = false ∧
      name = Text.ofChars (first :: Text.toChars (c.rest.takeWhile continuesName)) ∧
      nameTok name = .ident name := by
  -- Signs and numerals give other words, so the branch of names is left.
  unfold scanWord at h
  split at h
  · next htok _ =>
    cases h
    exact absurd htok (withEquals?_ne_ident _ _)
  · split at h
    · next htok =>
      cases h
      exact absurd htok (alone?_ne_ident _ _)
    · split at h
      · unfold scanNumber at h
        dsimp only at h
        split at h
        · next htok =>
          cases h
          exact absurd htok (numberTok_ne_ident _ _ _ _)
        · cases h
      · next hnumber =>
        split at h
        · next hstart =>
          have htok : nameTok (Text.ofChars (first :: (c.takeRun continuesName).1)) =
              .ident name := (Token.mk.inj (Item.token.inj (Prod.mk.inj h).1)).1
          have hname := eq_of_nameTok htok
          refine ⟨hstart, ?_, hname.symm, hname ▸ htok⟩
          simp only [Bool.or_eq_true, not_or, Bool.not_eq_true] at hnumber
          exact hnumber.2
        · cases h

theorem skip_suffix (b : Bool) (t : Text) (p : Pos) : (skip b t p).rest <:+ t := by
  fun_induction skip b t p
  all_goals first
    | exact List.suffix_rfl
    | exact List.IsSuffix.trans ‹_› (List.suffix_cons _ _)

/-- A text that is read as the name it spells is a run of name characters, and it is read as that
name also where more text follows. -/
theorem reads_of_items {name : Text} {q : Pos} (h : name.items = [.token ⟨.ident name, q⟩]) :
    Reads name [.ident name] := by
  obtain ⟨g, t, p, behind, hrest, hword⟩ := exists_scanWord_of_scanAll h
  obtain ⟨hstart, hdigit, hname, htok⟩ := scanWord_ident hword
  -- Nothing was skipped and nothing is left behind, since the name is as long as the text.
  have hsuffix : g :: t <:+ name := hrest ▸ skip_suffix false name .start
  have hprefix := List.takeWhile_prefix (p := continuesName) (l := t)
  have hlength : name.length = (t.takeWhile continuesName).length + 1 := by
    rw [hname]
    simp [Text.ofChars, Text.toChars]
  have hle := hsuffix.length_le
  have hle' := hprefix.length_le
  rw [List.length_cons] at hle
  have htext : g :: t = name := hsuffix.eq_of_length (by rw [List.length_cons]; omega)
  have hrun : t.takeWhile continuesName = t := hprefix.eq_of_length (by omega)
  rw [hrun] at hname
  have hchars : t = Text.ofChars (Text.toChars t) := by
    rw [hname] at htext
    exact (List.cons.inj htext).2
  have hmore : ∀ c ∈ Text.toChars t, continuesName (.char c) := by
    intro c hc
    have hmem : Glyph.char c ∈ t := hchars ▸ List.mem_map_of_mem hc
    rw [← hrun] at hmem
    exact List.all_eq_true.1 List.all_takeWhile _ hmem
  have h := reads_name hstart hdigit hmore
  rw [← hname, htok] at h
  exact h

end ExprTyping
