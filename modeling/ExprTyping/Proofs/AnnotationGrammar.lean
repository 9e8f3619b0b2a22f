import ExprTyping.Proofs.Annotations

/-!
# The grammar of annotations

An annotation is a sentence of a small grammar: the name of a scalar type, the word `matrix` with
two dimensions, or two bounds between brackets. The grammar says which words make an annotation, and
apart from that it is said which type an annotation denotes, as dimensions and bounds have to make
sense. Reading finds a type exactly where both are met.

- `Annotation.Words` and `Annotation.Denotes`: the words of an annotation, and its type;
- `TypeText.Obeys`: all that can come of a reader, whatever the items are;
- `TypeText.EndsWithin`: a reader that meets the end of the items before certain words are complete;
- `TypeText.obeys_read`, `Annotation.accepts_read` and `Annotation.endsWithin_read`: the reader of
  annotations keeps to the grammar;
- `parseType_grammar`: what comes of a source.
-/

namespace ExprTyping

/-! ## The grammar -/

/-- Whether a name is the word `matrix`, each letter of it small or capital. -/
def SpellsMatrix (word : Text) : Prop :=
  List.Forall₂ (fun g c => g = .char c ∨ g = .char c.toUpper) word "matrix".toList

/-- The words of a bound without its sign, and its value. -/
inductive Magnitude : Tok → Binary64 → Prop
  | integer (n : Int64) : Magnitude (.integer n) (.ofInt n.toInt)
  | real (x : Binary64) : Magnitude (.real x) x
  | inf : Magnitude (.ident "inf") .infinity

/-- The words of a bound, and its value. -/
inductive BoundWords : List Tok → Binary64 → Prop
  | plain {tok : Tok} {x : Binary64} : Magnitude tok x → BoundWords [tok] x
  | minus {tok : Tok} {x : Binary64} : Magnitude tok x → BoundWords [.minus, tok] x.neg

/-- What an annotation says. -/
inductive Annotation where
  /-- The name of a type. -/
  | scalar (name : String)
  /-- The dimensions of a matrix. -/
  | matrix (rows cols : Int64)
  /-- Two bounds, and whether their brackets are square. -/
  | interval (includesLow : Bool) (low high : Binary64) (includesHigh : Bool)

namespace Annotation

/-- The words of an annotation. -/
inductive Words : Annotation → List Tok → Prop
  | scalar {name : String} : name ∈ ["int", "real", "bool"] → Words (.scalar name) [.ident name]
  | matrix {word : Text} (rows cols : Int64) : SpellsMatrix word → Words (.matrix rows cols)
      [.ident word, .openParen, .integer rows, .comma, .integer cols, .closeParen]
  | interval {lows highs : List Tok} {low high : Binary64} (includesLow includesHigh : Bool) :
      BoundWords lows low → BoundWords highs high →
      Words (.interval includesLow low high includesHigh)
        ((if includesLow then .openBracket else .openParen) :: (lows ++ .comma ::
          (highs ++ [if includesHigh then .closeBracket else .closeParen])))

/-- The type that an annotation denotes: dimensions are positive, and bounds ascend from zero or
above. -/
def Denotes : Annotation → Ty Binary64 → Prop
  | .scalar name, ty => ty = .scalar name
  | .matrix rows cols, ty =>
    0 < rows.toInt ∧ 0 < cols.toInt ∧ ty = .matrix ⟨rows.toInt, cols.toInt⟩
  | .interval includesLow low high includesHigh, ty =>
    Binary64.le .zero low ∧ Binary64.lt low high ∧
      ty = .interval ⟨low, high, includesLow, includesHigh⟩

/-- Whether some words begin an annotation and more have to follow. -/
def IsBegun (toks : List Tok) : Prop :=
  ∃ a more, more ≠ [] ∧ Words a (toks ++ more)

end Annotation

/-- Whether a text is read without a fault, as certain words. -/
def Text.HasWords (source : Text) (toks : List Tok) : Prop :=
  ∃ ts : List Token, source.items = ts.map .token ∧ ts.map Token.tok = toks

/-! ## Single words and bounds -/

/-- A small letter is the small one of itself and of its capital only. -/
theorem toLower_eq_iff {c d : Char} (hc : c.isLower) : d.toLower = c ↔ d = c ∨ d = c.toUpper := by
  have hA : 'A'.val.toNat = 65 := rfl
  have hZ : 'Z'.val.toNat = 90 := rfl
  have ha : 'a'.val.toNat = 97 := rfl
  have hz : 'z'.val.toNat = 122 := rfl
  have hdown : ('a'.val - 'A'.val).toNat = 32 := rfl
  have hup : ('A'.val - 'a'.val).toNat = 2 ^ 32 - 32 := rfl
  -- The two cases of a letter are 32 apart, and the way up wraps around.
  unfold Char.isLower at hc
  simp only [Bool.and_eq_true, decide_eq_true_eq, ge_iff_le, UInt32.le_iff_toNat_le, ha, hz] at hc
  unfold Char.toLower Char.toUpper
  simp only [Char.ext_iff, ← UInt32.toNat_inj, ge_iff_le, UInt32.le_iff_toNat_le, hA, hZ, ha, hz]
  split_ifs <;> simp only [UInt32.toNat_add, hdown, hup] <;> omega

/-- Bounds in order are numbers, as nothing is above or below what is none. -/
theorem Interval.validBounds_iff_ascending {low high : Binary64} :
    validBounds low high ↔ Binary64.le .zero low ∧ Binary64.lt low high := by
  rw [validBounds_iff true true]
  refine ⟨fun h => h.2.2, fun ⟨hle, hlt⟩ => ⟨?_, ?_, hle, hlt⟩⟩
  · cases low with
    | nan => cases hle
    | num s k => rfl
  · cases low with
    | nan => cases hle
    | num s k =>
      cases high with
      | nan => cases hlt
      | num t l => rfl

namespace TypeText

theorem isMatrixWord_iff {word : Text} : isMatrixWord word ↔ SpellsMatrix word := by
  have hletters : ∀ c ∈ "matrix".toList, c.isLower := List.all_eq_true.1 (by decide)
  rw [isMatrixWord, beq_iff_eq, SpellsMatrix, Text.toChars, List.map_map]
  generalize "matrix".toList = letters at hletters
  induction word generalizing letters with
  | nil => cases letters <;> simp
  | cons g word ih =>
    cases letters with
    | nil => simp
    | cons c letters =>
      obtain ⟨hc, hletters⟩ := List.forall_mem_cons.1 hletters
      have hglyph : g.toChar.toLower = c ↔ g = .char c ∨ g = .char c.toUpper := by
        cases g with
        | char d => rw [Glyph.toChar, toLower_eq_iff hc, Glyph.char.injEq, Glyph.char.injEq]
        | stray b =>
          -- A stray byte is shown as a sign that is no letter.
          have hsign : (Glyph.stray b).toChar.toLower = '\uFFFD' := rfl
          refine iff_of_false ?_ (by simp)
          rw [hsign]
          rintro rfl
          exact absurd hc (by decide)
      rw [List.map_cons, List.cons.injEq, List.forall₂_cons]
      exact and_congr hglyph (ih letters hletters)

theorem magnitude_iff {tok : Tok} {x : Binary64} : Magnitude tok x ↔ boundValue? tok = some x := by
  constructor
  · rintro (n | x | -) <;> rfl
  · intro h
    unfold boundValue? at h
    split at h
    · cases h
      exact .integer _
    · cases h
      exact .real _
    · split at h
      · next hname =>
        cases h
        subst hname
        exact .inf
      · cases h
    · cases h

theorem ofName?_eq_some {word : Text} {ty : Ty Binary64} (h : Ty.ofName? word = some ty) :
    ∃ name ∈ ["int", "real", "bool"], word = Text.ofString name ∧ ty = .scalar name := by
  unfold Ty.ofName? at h
  split_ifs at h with hint hreal hbool
  · cases h
    exact ⟨"int", by decide, hint, rfl⟩
  · cases h
    exact ⟨"real", by decide, hreal, rfl⟩
  · cases h
    exact ⟨"bool", by decide, hbool, rfl⟩

/-! ## What comes of a reader -/

variable {α γ : Type} {p : Parse α} {f : α → Parse γ} {Q : List Tok → α → Prop}
  {B : List Tok → Prop}

/-- What can come of reading some items. A result has property `Q` together with the words that were
taken in. Where the items end too early, all of them are words, and these have property `B`. A fault
is the first one. A word may be misplaced, but no reader finds that a source is incomplete. -/
inductive Outcome (Q : List Tok → α → Prop) (B : List Tok → Prop) (items : List Item) :
    Except TypeTextFailure (α × List Item) → Prop
  | ok (ts : List Token) {a : α} {rest : List Item} :
      items = ts.map .token ++ rest → Q (ts.map Token.tok) a → Outcome Q B items (.ok (a, rest))
  | ended (ts : List Token) :
      items = ts.map .token → B (ts.map Token.tok) → Outcome Q B items (.error .ended)
  | scan (ts : List Token) {fault : ScanFault} {rest : List Item} :
      items = ts.map .token ++ .fault fault :: rest → Outcome Q B items (.error (.scan fault))
  | misplaced {e : TypeTextError} {pos : Pos} :
      (∀ source, e ≠ .incomplete source) → Outcome Q B items (.error (.misplaced e pos))

/-- Whether nothing else comes of a reader, whatever the items are. -/
def Obeys (p : Parse α) (Q : List Tok → α → Prop) (B : List Tok → Prop) : Prop :=
  ∀ items, Outcome Q B items (p items)

theorem obeys_pure {a : α} (h : Q [] a) : Obeys (pure a) Q B :=
  fun _ => .ok [] rfl h

theorem obeys_refuse {e : TypeTextError} {pos : Pos} (h : ∀ source, e ≠ .incomplete source) :
    Obeys (refuse e pos) Q B :=
  fun _ => .misplaced h

theorem obeys_token : Obeys token (fun u t => u = [t.tok]) fun u => u = []
  | [] => .ended [] rfl rfl
  | .fault _ :: _ => .scan [] rfl
  | .token t :: _ => .ok [t] rfl rfl

/-- One reader behind another: what the second one takes in stands behind the words of the first. -/
theorem Obeys.bind {R : List Tok → γ → Prop} {C : List Tok → Prop} (hp : Obeys p Q B)
    (hended : ∀ u, B u → C u)
    (hf : ∀ u a, Q u a → Obeys (f a) (fun v b => R (u ++ v) b) fun v => C (u ++ v)) :
    Obeys (p >>= f) R C := by
  intro items
  rw [bind_eq]
  have hfirst := hp items
  generalize p items = first at hfirst
  cases hfirst with
  | @ok ts a rest hitems ha =>
    have hsecond := hf _ a ha rest
    dsimp only
    generalize f a rest = second at hsecond
    -- The first reader has taken in `ts`, and whatever the second one takes in follows.
    cases hsecond with
    | ok ts' hrest hb => exact .ok (ts ++ ts') (by simp [hitems, hrest]) (by simpa using hb)
    | ended ts' hrest hC => exact .ended (ts ++ ts') (by simp [hitems, hrest]) (by simpa using hC)
    | @scan ts' fault rest' hrest =>
      have hall : items = (ts ++ ts').map .token ++ .fault fault :: rest' := by
        simp [hitems, hrest]
      exact .scan (ts ++ ts') hall
    | misplaced he => exact .misplaced he
  | ended ts hitems hB => exact .ended ts hitems (hended _ hB)
  | scan ts hitems => exact .scan ts hitems
  | misplaced he => exact .misplaced he

theorem obeys_expect (wanted : Tok) :
    Obeys (expect wanted) (fun u _ => u = [wanted]) fun u => u = [] := by
  refine obeys_token.bind (fun _ h => h) ?_
  rintro _ t rfl
  split
  · next ht => exact obeys_pure (by simp [ht])
  · exact obeys_refuse nofun

theorem obeys_integer :
    Obeys integer (fun u r => ∃ n : Int64, u = [.integer n] ∧ r.1 = n.toInt) fun u => u = [] := by
  refine obeys_token.bind (fun _ h => h) ?_
  rintro _ t rfl
  split
  · next n ht => exact obeys_pure ⟨n, by simp [ht], rfl⟩
  · exact obeys_refuse nofun

theorem obeys_closing :
    Obeys closing (fun u b => u = [if b then .closeBracket else .closeParen]) fun u => u = [] := by
  refine obeys_token.bind (fun _ h => h) ?_
  rintro _ t rfl
  split
  · next ht => exact obeys_pure (by simp [ht])
  · next ht => exact obeys_pure (by simp [ht])
  · exact obeys_refuse nofun

theorem obeys_boundOf {R : List Tok → Binary64 → Prop} {negative : Bool} {t : Token}
    (h : ∀ x, Magnitude t.tok x → R [] (if negative then x.neg else x)) :
    Obeys (boundOf negative t) R B := by
  unfold boundOf
  split
  · next x hx => exact obeys_pure (h x (magnitude_iff.2 hx))
  · exact obeys_refuse nofun

theorem obeys_bound : Obeys bound BoundWords fun u => u = [] ∨ u = [.minus] := by
  refine obeys_token.bind (fun _ => .inl) ?_
  rintro _ t rfl
  split
  · next ht =>
    rw [ht]
    refine obeys_token.bind (by rintro _ rfl; exact .inr rfl) ?_
    rintro _ t' rfl
    exact obeys_boundOf fun x hx => .minus hx
  · exact obeys_boundOf fun x hx => .plain hx

open Annotation

theorem obeys_dimensions {word : Text} (hword : SpellsMatrix word) :
    Obeys dimensions (fun u ty => ∃ a, Words a (.ident word :: u) ∧ a.Denotes ty)
      fun u => IsBegun (.ident word :: u) := by
  refine (obeys_expect .openParen).bind ?_ ?_
  · rintro _ rfl
    exact ⟨.matrix 1 1, _, List.cons_ne_nil _ _, .matrix 1 1 hword⟩
  rintro _ _ rfl
  refine obeys_integer.bind ?_ ?_
  · rintro _ rfl
    exact ⟨.matrix 1 1, _, List.cons_ne_nil _ _, .matrix 1 1 hword⟩
  rintro _ r ⟨rows, rfl, hr⟩
  refine (obeys_expect .comma).bind ?_ ?_
  · rintro _ rfl
    exact ⟨.matrix rows 1, _, List.cons_ne_nil _ _, .matrix rows 1 hword⟩
  rintro _ _ rfl
  refine obeys_integer.bind ?_ ?_
  · rintro _ rfl
    exact ⟨.matrix rows 1, _, List.cons_ne_nil _ _, .matrix rows 1 hword⟩
  rintro _ c ⟨cols, rfl, hc⟩
  refine (obeys_expect .closeParen).bind ?_ ?_
  · rintro _ rfl
    exact ⟨.matrix rows cols, _, List.cons_ne_nil _ _, .matrix rows cols hword⟩
  rintro _ _ rfl
  split
  · next shape hshape =>
    refine obeys_pure ⟨.matrix rows cols, .matrix rows cols hword, ?_⟩
    unfold Shape.make? at hshape
    split at hshape
    · cases hshape
    · next hpos =>
      cases hshape
      simp only [Bool.or_eq_true, decide_eq_true_eq, not_or, Int.not_le, hr, hc] at hpos
      exact ⟨hpos.1, hpos.2, by rw [hr, hc]⟩
  · exact obeys_refuse nofun

theorem obeys_interval (includesLow : Bool) (pos : Pos) :
    Obeys (interval includesLow pos)
      (fun u ty => ∃ a, Words a ((if includesLow then .openBracket else .openParen) :: u) ∧
        a.Denotes ty)
      fun u => IsBegun ((if includesLow then .openBracket else .openParen) :: u) := by
  -- One stands for every bound that is still to come.
  have hone : BoundWords [.integer 1] _ := .plain (.integer 1)
  refine obeys_bound.bind ?_ ?_
  · rintro _ (rfl | rfl)
    · have hwords := Words.interval includesLow true hone hone
      exact ⟨_, [.integer 1, .comma, .integer 1, .closeBracket], List.cons_ne_nil _ _, hwords⟩
    · have hwords := Words.interval includesLow true (.minus (.integer 1)) hone
      exact ⟨_, [.integer 1, .comma, .integer 1, .closeBracket], List.cons_ne_nil _ _, hwords⟩
  intro lows low hlow
  -- Behind the lower bound, some words begin an interval if an upper bound can complete them.
  have hbegun {u more : List Tok} {highs : List Tok} {high : Binary64}
      (hhigh : BoundWords highs high) (hmore : more ≠ [])
      (h : u ++ more = .comma :: (highs ++ [.closeBracket])) :
      IsBegun ((if includesLow then .openBracket else .openParen) :: (lows ++ u)) := by
    refine ⟨.interval includesLow low high true, more, hmore, ?_⟩
    have hwords := Words.interval includesLow true hlow hhigh
    rw [if_pos rfl, ← h] at hwords
    simpa using hwords
  refine (obeys_expect .comma).bind ?_ ?_
  · rintro _ rfl
    exact hbegun hone (List.cons_ne_nil _ _) rfl
  rintro _ _ rfl
  refine obeys_bound.bind ?_ ?_
  · rintro _ (rfl | rfl)
    · exact hbegun hone (List.cons_ne_nil _ _) rfl
    · exact hbegun (.minus (.integer 1)) (List.cons_ne_nil _ _) rfl
  intro highs high hhigh
  refine obeys_closing.bind ?_ ?_
  · rintro _ rfl
    exact hbegun hhigh (List.cons_ne_nil .closeBracket []) (by simp)
  rintro _ includesHigh rfl
  -- The words are complete, and it is left to see whether the bounds make sense.
  split
  · next iv hmake =>
    refine obeys_pure ⟨_, .interval includesLow includesHigh hlow hhigh, ?_⟩
    unfold Interval.make at hmake
    split at hmake
    · next hvalid =>
      cases hmake
      obtain ⟨hle, hlt⟩ := Interval.validBounds_iff_ascending.1 hvalid
      exact ⟨hle, hlt, rfl⟩
    · cases hmake
  · exact obeys_refuse nofun

/-- What is read is an annotation together with its type, and where the items end too early they
begin an annotation. -/
theorem obeys_read : Obeys read (fun u ty => ∃ a, Words a u ∧ a.Denotes ty) IsBegun := by
  refine obeys_token.bind ?_ ?_
  · rintro _ rfl
    exact ⟨.scalar "int", _, List.cons_ne_nil _ _, .scalar (by decide)⟩
  rintro _ t rfl
  split
  · next name ht =>
    rw [ht]
    split
    · next hword => exact obeys_dimensions (isMatrixWord_iff.1 hword)
    · split
      · next hname =>
        obtain ⟨name, hmem, rfl, rfl⟩ := ofName?_eq_some hname
        exact obeys_pure ⟨.scalar name, .scalar hmem, rfl⟩
      · exact obeys_refuse nofun
  · next ht =>
    rw [ht]
    exact obeys_interval true t.pos
  · next ht =>
    rw [ht]
    exact obeys_interval false t.pos
  · exact obeys_refuse nofun

/-! ## Words that are not complete -/

variable {P : α → Prop} {u v : List Tok}

/-- Whether a reader meets the end of the items wherever the words `toks` break off. -/
def EndsWithin (p : Parse α) (toks : List Tok) : Prop :=
  ∀ (ts : List Token) (more : List Tok), more ≠ [] → ts.map Token.tok ++ more = toks →
    p (ts.map .token) = .error .ended

theorem endsWithin_nil (p : Parse α) : EndsWithin p [] := by
  intro ts more hmore h
  exact absurd (List.append_eq_nil_iff.1 h).2 hmore

theorem endsWithin_token (tok : Tok) : EndsWithin token [tok] := by
  intro ts more hmore h
  cases ts with
  | nil => rfl
  | cons t ts =>
    obtain ⟨-, h⟩ := List.cons.inj h
    exact absurd (List.append_eq_nil_iff.1 h).2 hmore

/-- Words break off within those of the first reader, or behind them. -/
theorem EndsWithin.bind (hp : EndsWithin p u) (haccepts : Accepts p u P)
    (hf : ∀ a, P a → EndsWithin (f a) v) : EndsWithin (p >>= f) (u ++ v) := by
  intro ts more hmore h
  rw [bind_eq]
  rcases List.append_eq_append_iff.1 h with ⟨w, hu, hw⟩ | ⟨w, hts, hv⟩
  · cases w with
    | nil =>
      -- The words break off between the two readers: the first one is content.
      obtain ⟨a, ha, hP⟩ := haccepts ts [] (by simpa using hu.symm)
      rw [List.append_nil] at ha
      rw [ha]
      exact hf a hP [] more hmore hw
    | cons tok w => rw [hp ts (tok :: w) (List.cons_ne_nil _ _) hu.symm]
  · obtain ⟨ts₁, ts₂, rfl, h₁, h₂⟩ := List.map_eq_append_iff.1 hts
    obtain ⟨a, ha, hP⟩ := haccepts ts₁ (ts₂.map .token) h₁
    rw [List.map_append, ha]
    exact hf a hP ts₂ more hmore (h₂ ▸ hv.symm)

/-- A reader that starts with a token ends before its first word. -/
theorem endsWithin_token_bind (f : Token → Parse γ) (tok : Tok) :
    EndsWithin (token >>= f) [tok] :=
  (endsWithin_token tok).bind (accepts_token tok) fun _ _ => endsWithin_nil _

theorem accepts_boundWords {toks : List Tok} {x : Binary64} (h : BoundWords toks x) :
    Accepts bound toks fun y => y = x := by
  cases h with
  | plain h => exact accepts_bound (magnitude_iff.1 h)
  | minus h => exact accepts_bound_minus (magnitude_iff.1 h)

theorem endsWithin_boundWords {toks : List Tok} {x : Binary64} (h : BoundWords toks x) :
    EndsWithin bound toks := by
  cases h with
  | plain h => exact endsWithin_token_bind _ _
  | @minus tok x h =>
    refine (endsWithin_token .minus).bind (v := [tok]) (accepts_token .minus) fun t ht => ?_
    rw [if_pos ht]
    exact endsWithin_token_bind _ _

theorem endsWithin_dimensions (rows cols : Int64) :
    EndsWithin dimensions [.openParen, .integer rows, .comma, .integer cols, .closeParen] := by
  refine (endsWithin_token_bind _ .openParen).bind
    (v := [.integer rows, .comma, .integer cols, .closeParen]) (accepts_expect _) fun _ _ => ?_
  refine (endsWithin_token_bind _ (.integer rows)).bind
    (v := [.comma, .integer cols, .closeParen]) (accepts_integer _) fun _ _ => ?_
  refine (endsWithin_token_bind _ .comma).bind
    (v := [.integer cols, .closeParen]) (accepts_expect _) fun _ _ => ?_
  refine (endsWithin_token_bind _ (.integer cols)).bind
    (v := [.closeParen]) (accepts_integer _) fun _ _ => ?_
  exact (endsWithin_token_bind _ .closeParen).bind (accepts_expect _) fun _ _ => endsWithin_nil _

theorem endsWithin_interval {lows highs : List Tok} {low high : Binary64}
    (hlow : BoundWords lows low) (hhigh : BoundWords highs high)
    (includesLow includesHigh : Bool) (pos : Pos) :
    EndsWithin (interval includesLow pos)
      (lows ++ .comma :: (highs ++ [if includesHigh then .closeBracket else .closeParen])) := by
  refine (endsWithin_boundWords hlow).bind (accepts_boundWords hlow) fun _ _ => ?_
  refine (endsWithin_token_bind _ .comma).bind
    (v := highs ++ [if includesHigh then .closeBracket else .closeParen])
    (accepts_expect _) fun _ _ => ?_
  refine (endsWithin_boundWords hhigh).bind (accepts_boundWords hhigh) fun _ _ => ?_
  exact (endsWithin_token_bind _ _).bind (accepts_closing _) fun _ _ => endsWithin_nil _

end TypeText

open TypeText

namespace Annotation

variable {a : Annotation} {toks : List Tok} {ty : Ty Binary64}

/-- The words of an annotation are read as its type. -/
theorem accepts_read (h : a.Words toks) (hty : a.Denotes ty) :
    Accepts read toks fun t => t = ty := by
  cases h with
  | @scalar name hname =>
    cases hty
    have hword : isMatrixWord name = false ∧
        Ty.ofName? name = some (.scalar name : Ty Binary64) := by
      simp only [List.mem_cons, List.not_mem_nil, or_false] at hname
      rcases hname with rfl | rfl | rfl <;> decide
    exact accepts_read_scalar hword.1 hword.2
  | matrix rows cols hword =>
    obtain ⟨hrows, hcols, rfl⟩ := hty
    exact accepts_read_matrix (isMatrixWord_iff.2 hword) (accepts_dimensions hrows hcols)
  | interval includesLow includesHigh hlow hhigh =>
    obtain ⟨hle, hlt, rfl⟩ := hty
    refine accepts_read_interval fun pos => ?_
    exact accepts_interval (accepts_boundWords hlow) (accepts_boundWords hhigh)
      (Interval.validBounds_iff_ascending.2 ⟨hle, hlt⟩) includesLow includesHigh pos

/-- Reading ends wherever the words of an annotation break off, whatever its dimensions or bounds
are. -/
theorem endsWithin_read (h : a.Words toks) : EndsWithin read toks := by
  cases h with
  | scalar hname => exact endsWithin_token_bind _ _
  | @matrix word rows cols hword =>
    refine (endsWithin_token (.ident word)).bind (v := [_, _, _, _, _]) (accepts_token _)
      fun t ht => ?_
    rw [ht]
    dsimp only
    rw [if_pos (isMatrixWord_iff.2 hword)]
    exact endsWithin_dimensions rows cols
  | interval includesLow includesHigh hlow hhigh =>
    refine (endsWithin_token _).bind (v := _ ++ _) (accepts_token _) fun t ht => ?_
    rw [ht]
    cases includesLow <;> exact endsWithin_interval hlow hhigh _ includesHigh t.pos

end Annotation

/-! ## Sources -/

open Annotation

/-- Of a source comes the type of an annotation, that it is incomplete, its first fault, or a
misplaced word. -/
theorem ofText_cases (source : Text) :
    (∃ a toks ty, source.HasWords toks ∧ Words a toks ∧ a.Denotes ty ∧ Ty.ofText source = .ok ty) ∨
      (∃ toks, source.HasWords toks ∧ IsBegun toks ∧
        Ty.ofText source = .error (.misplaced (.incomplete source) .nowhere)) ∨
      (∃ ts fault rest, source.items = List.map .token ts ++ .fault fault :: rest ∧
        Ty.ofText source = .error (.scan fault)) ∨
      ∃ e pos, (∀ s, e ≠ .incomplete s) ∧ Ty.ofText source = .error (.misplaced e pos) := by
  have hread := obeys_read source.items
  unfold Ty.ofText StateT.run
  generalize read source.items = result at hread
  cases hread with
  | @ok ts ty rest hitems hwords =>
    cases rest with
    | nil =>
      obtain ⟨a, hwords, hty⟩ := hwords
      rw [List.append_nil] at hitems
      exact .inl ⟨a, _, ty, ⟨ts, hitems, rfl⟩, hwords, hty, rfl⟩
    | cons item rest =>
      cases item with
      | fault fault => exact .inr (.inr (.inl ⟨ts, fault, rest, hitems, rfl⟩))
      | token t => exact .inr (.inr (.inr ⟨.unexpectedAfter t.tok, t.pos, nofun, rfl⟩))
  | ended ts hitems hbegun => exact .inr (.inl ⟨_, ⟨ts, hitems, rfl⟩, hbegun, rfl⟩)
  | @scan ts fault rest hitems => exact .inr (.inr (.inl ⟨ts, fault, rest, hitems, rfl⟩))
  | @misplaced e pos he => exact .inr (.inr (.inr ⟨e, pos, he, rfl⟩))

theorem ofText_eq_ok_iff {source : Text} {ty : Ty Binary64} :
    Ty.ofText source = .ok ty ↔ ∃ a toks, source.HasWords toks ∧ Words a toks ∧ a.Denotes ty := by
  constructor
  · intro h
    obtain ⟨a, toks, ty', hsource, hwords, hty, hok⟩ | ⟨_, _, _, herr⟩ | ⟨_, _, _, _, herr⟩ |
      ⟨_, _, _, herr⟩ := ofText_cases source
    · rw [h] at hok
      cases hok
      exact ⟨a, toks, hsource, hwords, hty⟩
    all_goals
      rw [h] at herr
      cases herr
  · rintro ⟨a, _, ⟨ts, hitems, rfl⟩, hwords, hty⟩
    obtain ⟨t, hread, rfl⟩ := accepts_read hwords hty ts [] rfl
    rw [List.append_nil, ← hitems] at hread
    unfold Ty.ofText StateT.run
    rw [hread]

theorem ofText_eq_incomplete_iff {source : Text} :
    Ty.ofText source = .error (.misplaced (.incomplete source) .nowhere) ↔
      ∃ toks, source.HasWords toks ∧ IsBegun toks := by
  constructor
  · intro h
    obtain ⟨_, _, _, _, _, _, hok⟩ | ⟨toks, hsource, hbegun, -⟩ | ⟨_, _, _, _, herr⟩ |
      ⟨e, _, he, herr⟩ := ofText_cases source
    · rw [h] at hok
      cases hok
    · exact ⟨toks, hsource, hbegun⟩
    · rw [h] at herr
      cases herr
    · rw [h] at herr
      cases herr
      exact absurd rfl (he source)
  · rintro ⟨_, ⟨ts, hitems, rfl⟩, a, more, hmore, hwords⟩
    have hread := endsWithin_read hwords ts more hmore rfl
    unfold Ty.ofText StateT.run
    rw [hitems, hread]

theorem ofText_ne_ended (source : Text) : Ty.ofText source ≠ .error .ended := by
  obtain ⟨_, _, _, _, _, _, h⟩ | ⟨_, _, _, h⟩ | ⟨_, _, _, _, h⟩ | ⟨_, _, _, h⟩ :=
    ofText_cases source <;> simp [h]

theorem parseType_eq_incomplete_iff {source : Text} :
    parseType source = .error ⟨.parse, "<type>", .nowhere, some (.typeText (.incomplete source))⟩ ↔
      Ty.ofText source = .error (.misplaced (.incomplete source) .nowhere) := by
  unfold parseType
  cases hread : Ty.ofText source with
  | ok ty => simp [Except.mapError]
  | error e =>
    cases e with
    | scan fault => simp [Except.mapError, Diagnostic.ofTypeText, Diagnostic.ofScan]
    | misplaced e pos => simp [Except.mapError, Diagnostic.ofTypeText, and_comm]
    | ended => exact absurd hread (ofText_ne_ended source)

/-- A source has a type exactly if it is read without a fault as the words of an annotation, and the
type is the one that the annotation denotes. Otherwise there is a diagnostic, and it is about the
source: the items never just end. It is of the stage that read the words, and then about their first
fault, or of the stage that put them together. That a source is incomplete is said exactly of the
words that begin an annotation. -/
theorem parseType_grammar (source : Text) :
    (∀ ty, parseType source = .ok ty ↔
        ∃ a toks, source.HasWords toks ∧ Words a toks ∧ a.Denotes ty) ∧
      ((∃ ty, parseType source = .ok ty) ∨
        ∃ d, parseType source = .error d ∧
          (d.stage = .parse ∨ d.stage = .lex ∧ ∃ ts fault rest,
            source.items = List.map .token ts ++ .fault fault :: rest ∧
              d = .ofScan "<type>" fault)) ∧
      Ty.ofText source ≠ .error .ended ∧
      (parseType source =
          .error ⟨.parse, "<type>", .nowhere, some (.typeText (.incomplete source))⟩ ↔
        ∃ toks, source.HasWords toks ∧ IsBegun toks) := by
  refine ⟨fun ty => parseType_eq_ok.trans ofText_eq_ok_iff, ?_, ofText_ne_ended source,
    parseType_eq_incomplete_iff.trans ofText_eq_incomplete_iff⟩
  unfold parseType
  obtain ⟨_, _, ty, _, _, _, h⟩ | ⟨_, _, _, h⟩ | ⟨ts, fault, rest, hitems, h⟩ | ⟨_, _, _, h⟩ :=
    ofText_cases source
  · exact .inl ⟨ty, by rw [h]; rfl⟩
  · exact .inr ⟨_, by rw [h]; rfl, .inl rfl⟩
  · exact .inr ⟨_, by rw [h]; rfl, .inr ⟨rfl, ts, fault, rest, hitems, rfl⟩⟩
  · exact .inr ⟨_, by rw [h]; rfl, .inl rfl⟩

end ExprTyping
