import ExprTyping.Proofs.Decoding
import ExprTyping.Proofs.Lexing

/-!
# Reading loses nothing

A source that is read without a fault is its words in order, each in the text that spells it and at
the place of that text, with nothing but blanks and comments between them.

- `Tokenized`: how a source splits into gaps and the lexemes of its words;
- `items_tokenized`: the words of a well-formed source.
-/

namespace ExprTyping

open Cursor

/-- A source as gaps and lexemes in turn, `before` having been read already. Each word is the one
that its lexeme denotes and stands where its lexeme starts. -/
inductive Tokenized : List Char → List Char → List Token → Prop
  | done {before gap : List Char} : Gap true gap → Tokenized before gap []
  | token {before gap lexeme rest : List Char} {tok : Tok} {ts : List Token} :
      Gap false gap → (∀ other : Tok, other.SpelledBy lexeme ↔ other = tok) →
      Tokenized (before ++ gap ++ lexeme) rest ts →
      Tokenized before (gap ++ lexeme ++ rest) (⟨tok, .following (before ++ gap)⟩ :: ts)

theorem Cursor.Trace.tokenized {before cs : List Char} {items : List Item}
    (h : Trace before cs items) {ts : List Token} (hts : items = ts.map .token) :
    Tokenized before cs ts := by
  induction h generalizing ts with
  | done hgap =>
    obtain rfl : ts = [] := List.map_eq_nil_iff.1 hts.symm
    exact .done hgap
  | token hgap hread _ ih =>
    obtain ⟨t, ts, rfl, htok, hitems⟩ := List.map_eq_cons_iff.1 hts.symm
    cases htok
    -- The lexeme spells the word that was read and, by uniqueness, no other one.
    refine .token hgap (fun other => ⟨fun hother => ?_, ?_⟩) (ih hitems.symm)
    · exact hother.unique hread.spelled
    · rintro rfl
      exact hread.spelled
  | fault hgap _ ih =>
    obtain ⟨t, ts, -, htok, -⟩ := List.map_eq_cons_iff.1 hts.symm
    cases htok

/-- A well-formed source that is read without a fault is the lexemes of its words, with gaps between
them, and every word stands where its lexeme does. -/
theorem items_tokenized {cs : List Char} {ts : List Token}
    (h : (Text.ofBytes (cs.flatMap String.utf8EncodeChar)).items = ts.map .token) :
    Tokenized [] cs ts := by
  rw [Text.ofBytes_encode] at h
  exact (trace_items cs).tokenized h

theorem items_tokenized_comment :
    Tokenized [] "é ~= .5 # half\n <= 12".toList
      [⟨.ident "é", ⟨1, 1⟩⟩, ⟨.ne, ⟨1, 3⟩⟩, ⟨.real (Numeral.value ⟨['0'], ['5'], false, []⟩), ⟨1, 6⟩⟩,
        ⟨.le, ⟨2, 2⟩⟩, ⟨.integer 12, ⟨2, 5⟩⟩] :=
  items_tokenized (by decide +kernel)

end ExprTyping
