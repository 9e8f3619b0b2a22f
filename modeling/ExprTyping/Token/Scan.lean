import ExprTyping.Text.DecimalDigit
import ExprTyping.Text.Letter
import ExprTyping.Token.Basic

/-!
# Scanning

A cursor is what is left of a source, with the position reached. `Cursor.scan` skips blanks and
comments and reads one item; `Cursor.scanAll` reads all of them.

The scanner looks ahead by one byte. Whether a name or a numeral goes on is decided by the first
byte of the next glyph, taken as a character of its own, and then the whole glyph is read. So a
name goes on over every character whose first byte, as a code point, is a letter.

- `Cursor.length_scan_lt`: an item consumes something, which is why reading all items ends.
-/

namespace ExprTyping

/-- What is left to read, and the position reached so far. -/
structure Cursor where
  /-- What is left to read. -/
  rest : Text
  /-- The position of the last glyph read. -/
  pos : Pos
  deriving DecidableEq, Repr

namespace Cursor

/-- The cursor in front of a source. -/
def ofText (t : Text) : Cursor := ⟨t, .start⟩

/-- What the look-ahead sees of a glyph: its first byte as a code point. -/
def aheadOf (g : Glyph) : Char :=
  Char.ofNat g.lead

/-- What the look-ahead sees: NUL at the end. -/
def ahead (t : Text) : Char :=
  match t with
  | [] => Char.ofNat 0
  | g :: _ => aheadOf g

/-- Whether a numeral goes on with this glyph. -/
def continuesNumber (g : Glyph) : Bool :=
  Text.isDecimalDigit (aheadOf g)

/-- Whether a name goes on with this glyph. -/
def continuesName (g : Glyph) : Bool :=
  Text.isLetter (aheadOf g) || Text.isDecimalDigit (aheadOf g) || aheadOf g == '_'

/-! ## Blanks and comments -/

/-- Whether a glyph separates words. -/
def isSeparator (g : Glyph) : Bool :=
  g = .char ' ' || g = .char '\t' || g = .char '\n' || g = .char '\r'

/-- Skips blanks and comments; a comment runs from `#` to the end of its line. -/
def skip (inComment : Bool) : Text → Pos → Cursor
  | [], p => ⟨[], p⟩
  | g :: t, p =>
    if inComment then skip (g != .char '\n') t (p.advance g)
    else if isSeparator g then skip false t (p.advance g)
    else if g = .char '#' then skip true t (p.advance g)
    else ⟨g :: t, p⟩

/-- Skips to the next word. -/
def skipBlanks (c : Cursor) : Cursor :=
  skip false c.rest c.pos

/-! ## Runs -/

/-- Reads one glyph, if there is one. -/
def drop1 (c : Cursor) : Cursor :=
  match c.rest with
  | [] => c
  | g :: t => ⟨t, c.pos.advance g⟩

/-- Reads the longest run of glyphs with a property. -/
def takeRun (p : Glyph → Bool) (c : Cursor) : List Char × Cursor :=
  let run := c.rest.takeWhile p
  (Text.toChars run, ⟨c.rest.dropWhile p, c.pos.after run⟩)

/-! ## Words -/

/-- The word of a character that is followed by an equals sign. -/
def withEquals? (c : Char) : Option Tok :=
  match c with
  | '=' => some .eq
  | '!' => some .ne
  | '~' => some .ne
  | '<' => some .le
  | '>' => some .ge
  | _ => none

/-- The word of a character on its own. -/
def alone? (c : Char) : Option Tok :=
  match c with
  | '<' => some .lt
  | '>' => some .gt
  | '+' => some .plus
  | '-' => some .minus
  | '*' => some .times
  | '/' => some .divide
  | ',' => some .comma
  | '(' => some .openParen
  | ')' => some .closeParen
  | '[' => some .openBracket
  | ']' => some .closeBracket
  | _ => none

/-- The word that a run of name characters spells. -/
def nameTok (name : Text) : Tok :=
  if name = Text.ofString "and" then .and
  else if name = Text.ofString "or" then .or
  else if name = Text.ofString "not" then .not
  else .ident name

/-- Reads a name whose first character has been read; the cursor stands on it. -/
def scanName (first : Char) (c : Cursor) : Item × Cursor :=
  let (more, behind) := c.takeRun continuesName
  (.token ⟨nameTok (Text.ofChars (first :: more)), c.pos⟩, behind)

/-- The digits of a numeral in front of an exponent, and whether there is a point among them. -/
structure Mantissa where
  /-- The digits in front of the point. -/
  whole : List Char
  /-- Whether there is a point. -/
  point : Bool
  /-- The digits behind the point. -/
  fraction : List Char

/-- The characters of a mantissa. -/
def Mantissa.toChars (m : Mantissa) : List Char :=
  m.whole ++ (if m.point then '.' :: m.fraction else m.fraction)

/-- Reads a mantissa whose first character has been read. A point in front stands behind a zero. -/
def scanMantissa (first : Char) (c : Cursor) : Mantissa × Cursor :=
  if first = '.' then
    let (fraction, behind) := c.takeRun continuesNumber
    (⟨['0'], true, fraction⟩, behind)
  else
    let (more, c₁) := c.takeRun continuesNumber
    if ahead c₁.rest = '.' then
      let (fraction, behind) := c₁.drop1.takeRun continuesNumber
      (⟨first :: more, true, fraction⟩, behind)
    else (⟨first :: more, false, []⟩, c₁)

/-- Whether a character marks an exponent. -/
def isExponentMark (c : Char) : Bool :=
  c = 'e' || c = 'E'

/-- Whether a character is a sign. -/
def isSign (c : Char) : Bool :=
  c = '-' || c = '+'

/-- What follows the mantissa of a numeral. -/
inductive Exponent where
  /-- No exponent. -/
  | absent
  /-- A mark and perhaps a sign, as read, with no digit behind them. -/
  | malformed (read : List Char)
  /-- An exponent with its digits. -/
  | present (neg : Bool) (digits : List Char)

/-- Reads a sign, if there is one. -/
def scanSign (c : Cursor) : List Char × Cursor :=
  if isSign (ahead c.rest) then ([ahead c.rest], c.drop1) else ([], c)

/-- Reads an exponent, if there is one. -/
def scanExponent (c : Cursor) : Exponent × Cursor :=
  if isExponentMark (ahead c.rest) then
    let mark := ahead c.rest
    let (sign, c₁) := scanSign c.drop1
    let (digits, behind) := c₁.takeRun continuesNumber
    if digits.isEmpty then (.malformed (mark :: sign), behind)
    else (.present (sign == ['-']) digits, behind)
  else (.absent, c)

/-- The word of an integer numeral. -/
def integerTok (digits : List Char) : Except ScanError Tok :=
  let n := Numeral.natOfDigits digits
  if n < Nat.pow 2 63 then .ok (.integer (Int64.ofNat n)) else .error .integerOutOfRange

/-- The word of a numeral with a point or an exponent. -/
def realTok (n : Numeral) : Except ScanError Tok :=
  if n.value.isInfinite then .error .realOutOfRange else .ok (.real n.value)

/-- The word of a mantissa with its exponent; `plain` says that the first digit is one of 0 to 9. -/
def numberTok (plain : Bool) (m : Mantissa) : Exponent → Except ScanError Tok
  | .malformed read => .error (.malformedNumber (m.toChars ++ read))
  | .present neg digits =>
    if plain then realTok ⟨m.whole, m.fraction, neg, digits⟩ else .error .realMalformed
  | .absent =>
    if m.point then
      if plain then realTok ⟨m.whole, m.fraction, false, []⟩ else .error .realMalformed
    else if plain then integerTok m.whole else .error .integerMalformed

/-- Reads a numeral whose first character has been read; the cursor stands on it. A numeral that
starts with a digit of another script is read to its end and refused. -/
def scanNumber (first : Char) (c : Cursor) : Item × Cursor :=
  let (m, c₁) := scanMantissa first c
  let (e, behind) := scanExponent c₁
  match numberTok (first = '.' || first.isDigit) m e with
  | .ok tok => (.token ⟨tok, c.pos⟩, behind)
  | .error error => (.fault ⟨error, behind.pos⟩, behind)

/-- Reads a word whose first character has been read; the cursor stands on it. -/
def scanWord (first : Char) (c : Cursor) : Item × Cursor :=
  match withEquals? first, c.rest with
  | some tok, .char '=' :: t => (.token ⟨tok, c.pos⟩, ⟨t, c.pos.advance (.char '=')⟩)
  | _, _ =>
    match alone? first with
    | some tok => (.token ⟨tok, c.pos⟩, c)
    | none =>
      if (first = '.' && Text.isDecimalDigit (ahead c.rest)) || Text.isDecimalDigit first then
        scanNumber first c
      else if Text.isLetter first || first = '_' then scanName first c
      else (.fault ⟨.unexpectedChar first, c.pos⟩, c)

/-- Reads the next item; nothing at the end of the source. -/
def scan (c : Cursor) : Option Item × Cursor :=
  let c₁ := c.skipBlanks
  match c₁.rest with
  | [] => (none, c₁)
  | g :: t =>
    let (item, behind) := scanWord g.toChar ⟨t, c₁.pos.advance g⟩
    (some item, behind)

/-! ## Reading ends -/

theorem length_skip_le (b : Bool) (t : Text) (p : Pos) : (skip b t p).rest.length ≤ t.length := by
  fun_induction skip b t p <;> simp_all <;> omega

theorem length_drop1_le (c : Cursor) : c.drop1.rest.length ≤ c.rest.length := by
  unfold drop1
  split <;> simp_all

theorem length_dropWhile_le (p : Glyph → Bool) (t : Text) :
    (t.dropWhile p).length ≤ t.length :=
  (List.dropWhile_sublist p).length_le

theorem length_takeRun_le (p : Glyph → Bool) (c : Cursor) :
    (c.takeRun p).2.rest.length ≤ c.rest.length :=
  length_dropWhile_le p c.rest

theorem length_scanMantissa_le (first : Char) (c : Cursor) :
    (scanMantissa first c).2.rest.length ≤ c.rest.length := by
  have h₁ := length_takeRun_le continuesNumber c
  have h₂ := length_drop1_le (c.takeRun continuesNumber).2
  have h₃ := length_takeRun_le continuesNumber (c.takeRun continuesNumber).2.drop1
  unfold scanMantissa
  split
  · exact h₁
  · dsimp only
    split
    · dsimp only; omega
    · exact h₁

theorem length_scanSign_le (c : Cursor) : (scanSign c).2.rest.length ≤ c.rest.length := by
  unfold scanSign
  split
  · exact length_drop1_le c
  · exact Nat.le_refl _

theorem length_scanExponent_le (c : Cursor) :
    (scanExponent c).2.rest.length ≤ c.rest.length := by
  have h₁ := length_drop1_le c
  have h₂ := length_scanSign_le c.drop1
  have h₃ := length_takeRun_le continuesNumber (scanSign c.drop1).2
  unfold scanExponent
  split
  · dsimp only
    split <;> (dsimp only; omega)
  · exact Nat.le_refl _

theorem length_scanNumber_le (first : Char) (c : Cursor) :
    (scanNumber first c).2.rest.length ≤ c.rest.length := by
  have h₁ := length_scanMantissa_le first c
  have h₂ := length_scanExponent_le (scanMantissa first c).2
  unfold scanNumber
  dsimp only
  split <;> (dsimp only; omega)

theorem length_scanWord_le (first : Char) (c : Cursor) :
    (scanWord first c).2.rest.length ≤ c.rest.length := by
  unfold scanWord
  split
  · next h => simp [h]
  · split
    · exact Nat.le_refl _
    · split
      · exact length_scanNumber_le first c
      · split
        · exact length_takeRun_le _ _
        · exact Nat.le_refl _

/-- An item consumes at least one glyph. -/
theorem length_scan_lt {c behind : Cursor} {item : Item} (h : c.scan = (some item, behind)) :
    behind.rest.length < c.rest.length := by
  have hskip := length_skip_le false c.rest c.pos
  unfold scan skipBlanks at h
  dsimp only at h
  split at h
  · simp at h
  · next g t hrest =>
    have hword := length_scanWord_le g.toChar ⟨t, (skip false c.rest c.pos).pos.advance g⟩
    simp only [Prod.mk.injEq] at h
    rw [h.2] at hword
    simp only [hrest, List.length_cons] at hskip hword
    omega

/-- Reads all items up to the end of the source. -/
def scanAll (c : Cursor) : List Item × Cursor :=
  match _h : c.scan with
  | (none, behind) => ([], behind)
  | (some item, behind) =>
    let (items, final) := behind.scanAll
    (item :: items, final)
termination_by c.rest.length
decreasing_by exact length_scan_lt (by assumption)

end Cursor

/-- All items of a source. -/
def Text.items (source : Text) : List Item :=
  (Cursor.ofText source).scanAll.1

end ExprTyping
