import ExprTyping.Proofs.Decoding
import ExprTyping.Proofs.Lexing

/-!
# Runs of name characters

A name starts with a letter or an underscore and is meant to go on over letters, digits and
underscores. The scanner tests the first character as a whole but only the first byte of each
further one, so outside ASCII a name goes on over every character except those of one block.

- `seemsNameChar`: the characters that a name goes on over, and `continuesName_char`: the first byte
  tells just those;
- `items_nameRun`: every name is a longest run of them, and one of name characters exactly where
  the first bytes tell the truth;
- `not_items_isNameRun`: a name with a character that is no name character.
-/

namespace ExprTyping

open Cursor

/-- Whether a character is a letter, a decimal digit or an underscore. -/
def isNameChar (c : Char) : Bool :=
  Text.isLetter c || Text.isDecimalDigit c || c == '_'

/-- Whether a character seems to be one of a name. Outside ASCII all of them do, except those from
U+05C0 to U+05FF: their first byte, 0xD7, is the only one that is no letter as a code point. -/
def seemsNameChar (c : Char) : Bool :=
  if c.toNat < 128 then isNameChar c else !(0x5C0 ≤ c.toNat && c.toNat < 0x600)

theorem lead_eq_iff {c : Char} (h : 128 ≤ c.toNat) :
    (Glyph.char c).lead = 0xD7 ↔ 0x5C0 ≤ c.toNat ∧ c.toNat < 0x600 := by
  unfold Glyph.lead
  dsimp only
  split_ifs <;> omega

theorem continuesName_char (c : Char) : continuesName (.char c) = seemsNameChar c := by
  unfold seemsNameChar
  by_cases h : c.toNat < 128
  · rw [if_pos h, continuesName, aheadOf_ascii h]
    rfl
  · have hwide : 128 ≤ c.toNat := Nat.le_of_not_lt h
    obtain ⟨hlow, hhigh⟩ := lead_wide hwide
    -- Of the first bytes only the sign `×`, 0xD7, is no letter.
    have hbyte : ∀ n < 0xF5, 0xC2 ≤ n → isNameChar (Char.ofNat n) = decide (n ≠ 0xD7) := by
      decide +kernel
    rw [if_neg h]
    calc continuesName (.char c) = decide ((Glyph.char c).lead ≠ 0xD7) := hbyte _ hhigh hlow
      _ = !(0x5C0 ≤ c.toNat && c.toNat < 0x600) := by
        rw [decide_not, decide_eq_decide.2 (lead_eq_iff hwide), Bool.decide_and]

example : isNameChar '÷' = false ∧ seemsNameChar '÷' = true := by decide

example : isNameChar 'א' = true ∧ seemsNameChar 'א' = false := by decide

/-- Whether a text in front of another one is a longest run of name characters. -/
def IsNameRun (first : Char) (more after : List Char) : Prop :=
  startsName first ∧ (∀ c ∈ more, isNameChar c) ∧ ∀ c ∈ after.head?, isNameChar c = false

/-- A name in a source is read from a run of what seems to be name characters. -/
theorem Cursor.Trace.exists_nameRun {before cs : List Char} {items : List Item}
    (h : Trace before cs items) {t : Token} (ht : .token t ∈ items) (hname : t.tok.isName) :
    ∃ front lexeme after, before ++ cs = front ++ lexeme ++ after ∧ t.pos = .following front ∧
      t.tok.SpelledBy lexeme ∧ NameRun lexeme after := by
  induction h with
  | done hgap => cases ht
  | @token before gap lexeme rest tok items hgap hread _ ih =>
    rcases List.mem_cons.1 ht with heq | hmem
    · cases heq
      exact ⟨before ++ gap, lexeme, rest, by simp, rfl, hread.spelled, hread.run hname⟩
    · obtain ⟨front, text, after, hsource, hfound⟩ := ih hmem
      exact ⟨front, text, after, by rw [← hsource]; simp, hfound⟩
  | @fault before gap text rest fault items hgap _ ih =>
    rcases List.mem_cons.1 ht with heq | hmem
    · cases heq
    · obtain ⟨front, text, after, hsource, hfound⟩ := ih hmem
      exact ⟨front, text, after, by rw [← hsource]; simp, hfound⟩

/-- Every name and keyword of a well-formed source is a longest run of what seems to be name
characters. It is a longest run of name characters exactly if no character of it, and not the one
behind it, seems to be what it is not. -/
theorem items_nameRun {cs : List Char} {t : Token}
    (ht : .token t ∈ (Text.ofBytes (cs.flatMap String.utf8EncodeChar)).items)
    (hname : t.tok.isName) :
    ∃ before first more after, cs = before ++ first :: more ++ after ∧
      t.pos = .following before ∧ t.tok.SpelledBy (first :: more) ∧ startsName first ∧
      (∀ c ∈ more, seemsNameChar c) ∧ (∀ c ∈ after.head?, seemsNameChar c = false) ∧
      (IsNameRun first more after ↔
        ∀ c ∈ more ++ after.head?.toList, isNameChar c = seemsNameChar c) := by
  rw [Text.ofBytes_encode] at ht
  obtain ⟨before, lexeme, after, hsource, hpos, hspelled, first, more, rfl, hfirst, hmore, hafter⟩ :=
    (trace_items cs).exists_nameRun ht hname
  simp only [continuesName_char] at hmore hafter
  refine ⟨before, first, more, after, hsource, hpos, hspelled, hfirst, hmore, hafter, ?_, ?_⟩
  · rintro ⟨-, hall, hstop⟩ c hc
    rcases List.mem_append.1 hc with hc | hc
    · rw [hall c hc, hmore c hc]
    · rw [Option.mem_toList] at hc
      rw [hstop c hc, hafter c hc]
  · intro htrue
    refine ⟨hfirst, fun c hc => ?_, fun c hc => ?_⟩
    · rw [htrue c (List.mem_append_left _ hc), hmore c hc]
    · rw [htrue c (List.mem_append_right _ (Option.mem_toList.2 hc)), hafter c hc]

theorem items_nameRun_wide :
    ∃ before first more after, "größe÷2א".toList = before ++ first :: more ++ after ∧
      ⟨1, 1⟩ = Pos.following before ∧ (Tok.ident "größe÷2").SpelledBy (first :: more) ∧
      startsName first ∧ (∀ c ∈ more, seemsNameChar c) ∧
      (∀ c ∈ after.head?, seemsNameChar c = false) ∧
      (IsNameRun first more after ↔
        ∀ c ∈ more ++ after.head?.toList, isNameChar c = seemsNameChar c) :=
  items_nameRun (t := ⟨.ident "größe÷2", ⟨1, 1⟩⟩) (by decide +kernel) rfl

/-- Not every name is a longest run of name characters: a name goes on over the sign `÷`. -/
theorem not_items_isNameRun :
    ¬ ∀ (cs : List Char) (t : Token),
      .token t ∈ (Text.ofBytes (cs.flatMap String.utf8EncodeChar)).items → t.tok.isName →
      ∃ before first more after, cs = before ++ first :: more ++ after ∧
        t.pos = .following before ∧ t.tok.SpelledBy (first :: more) ∧
        IsNameRun first more after := by
  intro h
  obtain ⟨before, first, more, after, -, -, ⟨hname, -⟩, -, hmore, -⟩ :=
    h "x÷".toList ⟨.ident "x÷", ⟨1, 1⟩⟩ (by decide +kernel) rfl
  have hchars : "x÷".toList = first :: more := ofChars_injective hname
  have hsign : '÷' ∈ more := by
    rw [← (List.cons.inj hchars).2]
    decide
  exact absurd (hmore '÷' hsign) (by decide)

end ExprTyping
