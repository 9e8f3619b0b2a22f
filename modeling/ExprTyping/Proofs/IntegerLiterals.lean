import ExprTyping.Proofs.Decoding
import ExprTyping.Proofs.Lexing
import ExprTyping.Proofs.LineByLine
import ExprTyping.Proofs.SourceTrees
import Mathlib.Data.Nat.Digits.Defs

/-!
# Integer literals are exact

A numeral of digits alone stands for its decimal value, whatever its length and its leading zeros,
as long as the value fits into 64 bits with a sign; beyond that it is refused and never wraps. A
numeral has no sign of its own. The smallest integer of 64 bits is therefore never read, which is
why the minus signs in front of a literal can all be taken in: each of them negates exactly.

- `Cursor.scan_digits`: a numeral of digits;
- `Expr.Printable.of_mem_nodes`: every literal of a tree that is read can be negated;
- `SignedInteger.run`: the signs in front of a numeral, wherever an operand is due.
-/

namespace ExprTyping

open Cursor

/-! ## Numerals -/

/-- The decimal value of digits, the most significant one in front. -/
def decimalValue (ds : List Char) : Nat :=
  Nat.ofDigits 10 (ds.reverse.map fun c => c.toNat - '0'.toNat)

theorem Numeral.natOfDigits_eq (ds : List Char) : natOfDigits ds = decimalValue ds := by
  rw [natOfDigits, decimalValue, ← List.foldr_reverse, Nat.ofDigits_eq_foldr, List.foldr_map]
  congr 1
  funext c n
  exact Nat.add_comm _ _

/-- Whether a numeral of digits goes on with a character: a digit, a point or the mark of an
exponent. -/
def extendsNumeral (c : Char) : Bool :=
  c.isDigit || c = '.' || c = 'e' || c = 'E'

/-- A byte that decodes to no character is outside ASCII. -/
theorem Text.le_of_head_stray {bytes : List UInt8} {b : UInt8}
    (h : (ofBytes bytes).head? = some (.stray b)) : 128 ≤ b.toNat := by
  cases bytes with
  | nil => cases h
  | cons first rest =>
    unfold ofBytes decodeFrom at h
    dsimp only at h
    split at h
    · cases h
    · next hnone =>
      cases h
      by_contra hlt
      have hascii : b < 0x80 := UInt8.lt_iff_toNat_lt.2 (Nat.lt_of_not_le hlt)
      unfold leading at hnone
      rw [if_pos hascii] at hnone
      cases hnone

/-- The look-ahead sees an ASCII character only in front of that character. -/
theorem Cursor.eq_of_aheadOf {x c : Char} (hx : x.toNat < 128) (hnul : x ≠ Char.ofNat 0)
    (h : aheadOf (.char c) = x) : c = x := by
  have hahead : ahead (Text.ofChars [c]) = x := h
  obtain ⟨t, ht⟩ := exists_of_ahead hx hnul hahead
  exact (List.cons.inj ht).1

/-- No numeral goes on with what follows. -/
theorem Cursor.stopsNumber_ofBytes {rest : List UInt8}
    (h : ∀ c, (Text.ofBytes rest).head? = some (.char c) → extendsNumeral c = false) :
    Stops (Text.ofBytes rest) ∧ ahead (Text.ofBytes rest) ≠ '.' ∧
      isExponentMark (ahead (Text.ofBytes rest)) = false := by
  -- Only the first glyph counts, and of a stray one only that it is outside ASCII.
  have hstray (b : UInt8) : (Text.ofBytes rest).head? = some (.stray b) → 128 ≤ b.toNat :=
    Text.le_of_head_stray
  generalize Text.ofBytes rest = t at h hstray
  cases t with
  | nil => exact ⟨nofun, by decide, by decide⟩
  | cons g t =>
    show Stops (g :: t) ∧ aheadOf g ≠ '.' ∧ isExponentMark (aheadOf g) = false
    cases g with
    | char c =>
      obtain ⟨⟨⟨hdigit, hpoint⟩, he⟩, hE⟩ : ((c.isDigit = false ∧ c ≠ '.') ∧ c ≠ 'e') ∧ c ≠ 'E' := by
        simpa [extendsNumeral] using h c rfl
      refine ⟨stops_cons (by rwa [continuesNumber_char]) t, ?_, ?_⟩
      · exact fun hahead => hpoint (eq_of_aheadOf (by decide) (by decide) hahead)
      · rw [isExponentMark, Bool.or_eq_false_iff, decide_eq_false_iff_not, decide_eq_false_iff_not]
        exact ⟨fun hahead => he (eq_of_aheadOf (by decide) (by decide) hahead),
          fun hahead => hE (eq_of_aheadOf (by decide) (by decide) hahead)⟩
    | stray b =>
      -- A stray byte is looked at as a code point between 128 and 255, and none of these counts.
      have hwide : ∀ n < 256, 128 ≤ n → Text.isDecimalDigit (Char.ofNat n) = false ∧
          Char.ofNat n ≠ '.' ∧ isExponentMark (Char.ofNat n) = false := by
        decide +kernel
      obtain ⟨hdigit, hpoint, hmark⟩ := hwide b.toNat b.toNat_lt (hstray b rfl)
      exact ⟨stops_cons (g := .stray b) hdigit t, hpoint, hmark⟩

theorem Cursor.integerTok_of_lt {ds : List Char} (h : decimalValue ds < 2 ^ 63) :
    integerTok ds = .ok (.integer (Int64.ofNat (decimalValue ds))) := by
  rw [← Numeral.natOfDigits_eq] at h ⊢
  exact if_pos h

theorem Cursor.integerTok_of_le {ds : List Char} (h : 2 ^ 63 ≤ decimalValue ds) :
    integerTok ds = .error .integerOutOfRange := by
  rw [← Numeral.natOfDigits_eq] at h
  exact if_neg (Nat.not_lt.2 h)

/-- Digits that nothing extends are read as one numeral, to their end. -/
theorem Cursor.scan_digits {ds : List Char} (hne : ds ≠ []) (hds : ∀ c ∈ ds, c.isDigit)
    {rest : Text} (hstop : Stops rest) (hpoint : ahead rest ≠ '.')
    (hmark : isExponentMark (ahead rest) = false) (p : Pos) :
    ∃ start, scan ⟨Text.ofChars ds ++ rest, p⟩ =
      (some (match integerTok ds with
        | .ok tok => .token ⟨tok, start⟩
        | .error error => .fault ⟨error, p.after (Text.ofChars ds)⟩),
      ⟨rest, p.after (Text.ofChars ds)⟩) := by
  cases ds with
  | nil => exact absurd rfl hne
  | cons first more =>
    obtain ⟨hfirst, hmore⟩ := List.forall_mem_cons.1 hds
    have hnumeric := isNumeric_of_isDigit hfirst
    have hscan := scan_cons (t := Text.ofChars more ++ rest) (p := p) hnumeric.not_blank
      fun hc => hnumeric.not_comment (Glyph.char.inj hc)
    have hnumber := scanNumber_of_parts hfirst
      (scanMantissa_whole hfirst hmore hstop hpoint (p.advance (.char first)))
      (scanExponent_absent hmark _)
    have htok : numberTok true ⟨first :: more, false, []⟩ .absent = integerTok (first :: more) := rfl
    -- The numeral stands where its first digit does.
    refine ⟨p.advance (.char first), hscan.trans ?_⟩
    show (some (scanWord first _).1, (scanWord first _).2) = _
    rw [scanWord_digit hfirst, hnumber, htok]
    cases integerTok (first :: more) <;> rfl

/-! ## Signs -/

/-- Every literal of a printable tree is printable. -/
theorem Expr.Printable.of_mem_nodes {e : Expr} (h : e.Printable) {pos : Pos} {l : Literal}
    (hmem : .lit pos l ∈ e.nodes) : l.Printable := by
  induction h with
  | lit p hl =>
    cases List.mem_singleton.1 hmem
    exact hl
  | sym p hname => cases List.mem_singleton.1 hmem
  | unary p hknown harity hlit he ih =>
    refine ih ?_
    simpa [nodes, visit, visitAll] using hmem
  | @binary p op left right hknown harity hl hr ihl ihr =>
    have hsplit : .lit pos l ∈ left.nodes ∨ .lit pos l ∈ right.nodes := by
      simpa [nodes, visit, visitAll] using hmem
    exact hsplit.elim ihl ihr

/-- The tokens of the numeral `n` under `k` minus signs, with parentheses around any part that
holds the numeral. -/
inductive SignedInteger (n : Int64) : Nat → List Token → Prop
  | numeral (pos : Pos) : SignedInteger n 0 [⟨.integer n, pos⟩]
  | minus (pos : Pos) {k : Nat} {ts : List Token} :
      SignedInteger n k ts → SignedInteger n (k + 1) (⟨.minus, pos⟩ :: ts)
  | parens (left right : Pos) {k : Nat} {ts : List Token} : SignedInteger n k ts →
      SignedInteger n k (⟨.openParen, left⟩ :: (ts ++ [⟨.closeParen, right⟩]))

theorem SignedInteger.exists_mem {n : Int64} {k : Nat} {ts : List Token}
    (h : SignedInteger n k ts) : ∃ pos, ⟨.integer n, pos⟩ ∈ ts := by
  induction h with
  | numeral pos => exact ⟨pos, List.mem_singleton_self _⟩
  | minus pos _ ih => exact ih.imp fun _ hmem => List.mem_cons_of_mem _ hmem
  | parens left right _ ih =>
    exact ih.imp fun _ hmem => List.mem_cons_of_mem _ (List.mem_append_left _ hmem)

namespace Machine

/-- Nothing binds tighter than a minus sign, so it takes its operand at once. -/
theorem run_negation (pos : Pos) (stack : Stack) (operand : Expr) (items : List Item) :
    (having (.negation pos :: stack) operand).run items =
      (having stack (operand.negated pos)).run items := by
  match items with
  | [] => rfl
  | .fault f :: items => rfl
  | .token t :: items =>
    have hpos : 0 < (Frame.negation pos).limit := Nat.zero_lt_succ 11
    have hnone : extension? (Frame.negation pos).limit t.tok = none := by
      rw [Option.eq_none_iff_forall_not_mem]
      rintro ⟨op, priority⟩ hext
      exact absurd (priority_of_extension? hext).1 (Nat.lt_irrefl 12)
    rw [run, run, step, step, stepHaving_cons hpos hnone]
    rfl

/-- A closing parenthesis behind the operand in parentheses. -/
theorem run_closeParen (pos : Pos) (stack : Stack) (operand : Expr) (items : List Item) :
    (having (.paren :: stack) operand).run (.token ⟨.closeParen, pos⟩ :: items) =
      (having stack operand).run items :=
  rfl

end Machine

/-- Wherever an operand is due, a numeral under minus signs is read as one literal, and no sign
wraps: the literal is the numeral or its opposite in the integers. -/
theorem SignedInteger.run {n : Int64} {k : Nat} {ts : List Token} (h : SignedInteger n k ts)
    (hn : -(2 ^ 63 - 1) ≤ n.toInt) :
    ∃ pos m x, Literal.Printable ⟨.int, m, x⟩ ∧ m.toInt = (-1) ^ k * n.toInt ∧
      ∀ stack items, (Machine.wanting stack).run (ts.map .token ++ items) =
        (Machine.having stack (.lit pos ⟨.int, m, x⟩)).run items := by
  -- Along the signs the literal stays printable, which is what makes the next negation exact.
  induction h with
  | numeral pos => exact ⟨pos, n, .zero, hn, by rw [pow_zero, one_mul], fun _ _ => rfl⟩
  | @minus pos k ts _ ih =>
    obtain ⟨inner, m, x, hm, hvalue, hrun⟩ := ih
    refine ⟨pos, -m, x.neg, hm.negate, ?_, fun stack items => ?_⟩
    · rw [Literal.toInt_neg hm, hvalue, pow_succ, mul_neg_one, neg_mul]
    · calc (Machine.wanting stack).run ((⟨.minus, pos⟩ :: ts).map .token ++ items)
          = (Machine.wanting (.negation pos :: stack)).run (ts.map .token ++ items) := rfl
        _ = (Machine.having (.negation pos :: stack) (.lit inner ⟨.int, m, x⟩)).run items :=
          hrun _ items
        _ = (Machine.having stack (.lit pos ⟨.int, -m, x.neg⟩)).run items :=
          Machine.run_negation pos stack _ items
  | @parens left right k ts _ ih =>
    obtain ⟨inner, m, x, hm, hvalue, hrun⟩ := ih
    refine ⟨inner, m, x, hm, hvalue, fun stack items => ?_⟩
    have hsplit : (⟨.openParen, left⟩ :: (ts ++ [⟨.closeParen, right⟩])).map Item.token ++ items =
        .token ⟨.openParen, left⟩ ::
          (ts.map .token ++ .token ⟨.closeParen, right⟩ :: items) := by
      simp
    rw [hsplit]
    exact (hrun (.paren :: stack) _).trans (Machine.run_closeParen right stack _ items)

/-! ## All sources -/

/-- Reading bytes from a position on, with nothing looked at. -/
def Lookahead.ofBytes (bytes : List UInt8) (p : Pos) : Lookahead :=
  ⟨⟨Text.ofBytes bytes, p⟩, []⟩

/-- Integer literals are exact: digits stand for their decimal value or are refused, every integer
literal of a tree that is read has an opposite, and a numeral under `k` minus signs is the one
literal of `(-1) ^ k` times its value. -/
theorem integerLiterals_exact :
    -- Digits that no character extends are read as the integer of their decimal value if that is
    -- at most `2 ^ 63 - 1`, and as a fault otherwise.
    (∀ (ds : List Char) (rest : List UInt8) (p : Pos), ds ≠ [] → (∀ c ∈ ds, c.isDigit) →
      (∀ c, (Text.ofBytes rest).head? = some (.char c) → extendsNumeral c = false) →
      (decimalValue ds ≤ 2 ^ 63 - 1 → ∃ (n : Int64) (start : Pos), n.toInt = decimalValue ds ∧
        (Lookahead.ofBytes (ds.flatMap String.utf8EncodeChar ++ rest) p).next =
          (.item (.token ⟨.integer n, start⟩), .ofBytes rest (p.after (Text.ofChars ds)))) ∧
      (2 ^ 63 - 1 < decimalValue ds →
        (Lookahead.ofBytes (ds.flatMap String.utf8EncodeChar ++ rest) p).next =
          (.item (.fault ⟨.integerOutOfRange, p.after (Text.ofChars ds)⟩),
            .ofBytes rest (p.after (Text.ofChars ds))))) ∧
    -- Every integer literal of a tree that is read keeps away from the one integer that has no
    -- opposite.
    (∀ (filename source : Text) (e : Expr), parseExpr filename source = .ok e →
      ∀ pos n x, .lit pos ⟨.int, n, x⟩ ∈ e.nodes →
        -(2 ^ 63 - 1) ≤ n.toInt ∧ n.toInt ≤ 2 ^ 63 - 1 ∧ (-n).toInt = -n.toInt) ∧
    -- A numeral of a source under `k` minus signs is one literal, wherever an operand is due, and
    -- also where nothing else is in the source.
    (∀ (source : Text) (before after : List Item) (n : Int64) (k : Nat) (ts : List Token),
      source.items = before ++ ts.map .token ++ after → SignedInteger n k ts →
      ∃ pos m x, m.toInt = (-1) ^ k * n.toInt ∧
        (∀ stack, (Machine.wanting stack).run (ts.map .token ++ after) =
          (Machine.having stack (.lit pos ⟨.int, m, x⟩)).run after) ∧
        (before = [] → after = [] → ∀ filename,
          parseExpr filename source = .ok (.lit pos ⟨.int, m, x⟩))) := by
  refine ⟨?_, ?_, ?_⟩
  · intro ds rest p hne hds hrest
    obtain ⟨hstop, hpoint, hmark⟩ := stopsNumber_ofBytes hrest
    obtain ⟨start, hscan⟩ := scan_digits hne hds hstop hpoint hmark p
    rw [Lookahead.ofBytes, Text.ofBytes_encode_append, Lookahead.next_of_scan hscan]
    refine ⟨fun hle => ?_, fun hlt => ?_⟩
    · have hrange : decimalValue ds < 2 ^ 63 := by omega
      rw [integerTok_of_lt hrange]
      exact ⟨_, start, Int64.toInt_ofNat_of_lt hrange, rfl⟩
    · rw [integerTok_of_le (by omega)]
      rfl
  · intro filename source e he pos n x hmem
    have hn : -(2 ^ 63 - 1) ≤ n.toInt := (printable_of_parseExpr he).of_mem_nodes hmem
    have hlt := n.toInt_lt
    exact ⟨hn, by omega, Literal.toInt_neg hn⟩
  · intro source before after n k ts hitems hsigned
    obtain ⟨pos, hmem⟩ := hsigned.exists_mem
    have hitem : .token ⟨.integer n, pos⟩ ∈ source.items := by
      rw [hitems]
      exact List.mem_append_left _ (List.mem_append_right _ (List.mem_map_of_mem hmem))
    have hn : (Literal.ofInt n).Printable := by
      cases Token.printable_atom hitem rfl with
      | lit _ hl => exact hl
    obtain ⟨start, m, x, -, hvalue, hrun⟩ := hsigned.run hn
    refine ⟨start, m, x, hvalue, fun stack => hrun stack after, ?_⟩
    rintro rfl rfl filename
    rw [parseExpr_eq_ok, hitems]
    exact hrun [] []

/-- Leading zeros do not count against the range, and the largest integer has an opposite. -/
theorem integerLiterals_exact_largest :
    let beyond := "0009223372036854775808".toList
    let source : Text := "-(--9223372036854775807)"
    (Lookahead.ofBytes (beyond.flatMap String.utf8EncodeChar ++ [0x29]) .start).next =
        (.item (.fault ⟨.integerOutOfRange, ⟨1, 22⟩⟩), .ofBytes [0x29] ⟨1, 22⟩) ∧
      ∃ pos m x, parseExpr "input" source = .ok (.lit pos ⟨.int, m, x⟩) ∧
        m.toInt = -(2 ^ 63 - 1) ∧ (-m).toInt = 2 ^ 63 - 1 := by
  intro beyond source
  obtain ⟨hread, hliterals, hsigned⟩ := integerLiterals_exact
  have hdigits : ∀ c ∈ beyond, c.isDigit := List.all_eq_true.1 (by decide)
  have hrest : ∀ c, (Text.ofBytes [0x29]).head? = some (.char c) → extendsNumeral c = false := by
    rintro c ⟨⟩
    decide
  have hitems : source.items = ([⟨.minus, ⟨1, 1⟩⟩, ⟨.openParen, ⟨1, 2⟩⟩, ⟨.minus, ⟨1, 3⟩⟩,
      ⟨.minus, ⟨1, 4⟩⟩, ⟨.integer 9223372036854775807, ⟨1, 5⟩⟩,
      ⟨.closeParen, ⟨1, 24⟩⟩] : List Token).map .token := by
    decide +kernel
  have htokens : SignedInteger 9223372036854775807 3 [⟨.minus, ⟨1, 1⟩⟩, ⟨.openParen, ⟨1, 2⟩⟩,
      ⟨.minus, ⟨1, 3⟩⟩, ⟨.minus, ⟨1, 4⟩⟩, ⟨.integer 9223372036854775807, ⟨1, 5⟩⟩,
      ⟨.closeParen, ⟨1, 24⟩⟩] :=
    .minus ⟨1, 1⟩ (.parens ⟨1, 2⟩ ⟨1, 24⟩ (.minus ⟨1, 3⟩ (.minus ⟨1, 4⟩ (.numeral ⟨1, 5⟩))))
  obtain ⟨pos, m, x, hm, -, hparse⟩ := hsigned source [] [] _ 3 _ (by simpa using hitems) htokens
  have hvalue : m.toInt = -(2 ^ 63 - 1) := hm.trans (by decide)
  have hparse := hparse rfl rfl "input"
  obtain ⟨-, -, hopposite⟩ := hliterals "input" source _ hparse pos m x List.mem_cons_self
  refine ⟨(hread beyond [0x29] .start nofun hdigits hrest).2 (by decide), pos, m, x, hparse,
    hvalue, ?_⟩
  rw [hopposite, hvalue, neg_neg]

end ExprTyping
