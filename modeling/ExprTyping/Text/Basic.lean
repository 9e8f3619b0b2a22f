/-!
# Text that may hold stray bytes

Sources, names and lines arrive as bytes, and nothing promises that the bytes are well-formed
UTF-8. A `Text` is the decoded view of such a byte string: each entry is a character or a single
byte that belongs to no well-formed character. Decoding loses nothing, so `Text` stands for byte
strings everywhere in the library, and all reading and printing happens on it.

- `Text.ofBytes` decodes; an ill-formed sequence gives up one byte at a time;
- `Text.toBytes` is the byte string of a text;
- `Glyph.lead` is the first byte of a glyph, which is all that a one-byte look-ahead can see.
-/

namespace ExprTyping

/-- One unit of text: a character, or a byte that is part of no well-formed character. -/
inductive Glyph where
  /-- A character. -/
  | char (c : Char)
  /-- A byte outside every well-formed character. -/
  | stray (b : UInt8)
  deriving DecidableEq, Repr, Inhabited

/-- A byte string, seen as the characters and stray bytes it decodes to. -/
abbrev Text := List Glyph

namespace Glyph

/-- The bytes of a glyph. -/
def toBytes : Glyph → List UInt8
  | .char c => String.utf8EncodeChar c
  | .stray b => [b]

/-- The first byte of a glyph, as a number below 256. -/
def lead : Glyph → Nat
  | .char c =>
    let n := c.toNat
    if n < 0x80 then n
    else if n < 0x800 then 0xC0 + n / 0x40
    else if n < 0x10000 then 0xE0 + n / 0x1000
    else 0xF0 + n / 0x40000
  | .stray b => b.toNat

/-- The character a reader sees: a stray byte reads as the replacement character. -/
def toChar : Glyph → Char
  | .char c => c
  | .stray _ => '�'

end Glyph

namespace Text

/-- The text of a list of characters. -/
def ofChars (cs : List Char) : Text :=
  cs.map .char

/-- The text of a string. -/
def ofString (s : String) : Text :=
  ofChars s.toList

instance : Coe String Text := ⟨ofString⟩

/-- The characters a reader sees. -/
def toChars (t : Text) : List Char :=
  t.map Glyph.toChar

/-- The string a reader sees. -/
def toString (t : Text) : String :=
  String.ofList (toChars t)

/-- The bytes of a text. -/
def toBytes (t : Text) : List UInt8 :=
  t.flatMap Glyph.toBytes

/-- The number of bytes of a text. -/
def byteLength (t : Text) : Nat :=
  (toBytes t).length

/-- The decimal digits of a natural number. -/
def ofNat (n : Nat) : Text :=
  ofChars (Nat.toDigits 10 n)

/-- The decimal digits of an integer, with a minus sign in front of a negative one. -/
def ofInt : Int → Text
  | .ofNat n => ofNat n
  | .negSucc n => .char '-' :: ofNat (n + 1)

/-- Joins texts with a separator between neighbours. -/
def join (sep : Text) : List Text → Text
  | [] => []
  | [t] => t
  | t :: u :: rest => t ++ sep ++ join sep (u :: rest)

/-! ## Decoding -/

/-- Whether `b` lies between two bytes, both included. -/
def between (lo hi b : UInt8) : Bool :=
  decide (lo ≤ b) && decide (b ≤ hi)

/-- Whether `b` may continue a character. -/
def continues (b : UInt8) : Bool :=
  between 0x80 0xBF b

/-- Whether two bytes form a character. -/
def isPair (b c : UInt8) : Bool :=
  between 0xC2 0xDF b && continues c

/-- Whether three bytes form a character: no overlong form and no surrogate. -/
def isTriple (b c d : UInt8) : Bool :=
  (if b == 0xE0 then between 0xA0 0xBF c
    else if b == 0xED then between 0x80 0x9F c
    else between 0xE1 0xEF b && continues c) && continues d

/-- Whether four bytes form a character: no overlong form and nothing above U+10FFFF. -/
def isQuad (b c d e : UInt8) : Bool :=
  (if b == 0xF0 then between 0x90 0xBF c
    else if b == 0xF4 then between 0x80 0x8F c
    else between 0xF1 0xF3 b && continues c) && continues d && continues e

/-- The payload of a continuing byte. -/
def payload (b : UInt8) : Nat :=
  b.toNat % 0x40

/-- The character that starts with the byte `b` and goes on in `rest`, with the number of bytes it
takes from `rest`; `none` if no well-formed character starts here. -/
def leading (b : UInt8) (rest : List UInt8) : Option (Char × Nat) :=
  if b < 0x80 then some (Char.ofNat b.toNat, 0)
  else match rest with
    | [] => none
    | [c] =>
      if isPair b c then some (Char.ofNat (b.toNat % 0x20 * 0x40 + payload c), 1) else none
    | [c, d] =>
      if isPair b c then some (Char.ofNat (b.toNat % 0x20 * 0x40 + payload c), 1)
      else if isTriple b c d then
        some (Char.ofNat ((b.toNat % 0x10 * 0x40 + payload c) * 0x40 + payload d), 2)
      else none
    | c :: d :: e :: _ =>
      if isPair b c then some (Char.ofNat (b.toNat % 0x20 * 0x40 + payload c), 1)
      else if isTriple b c d then
        some (Char.ofNat ((b.toNat % 0x10 * 0x40 + payload c) * 0x40 + payload d), 2)
      else if isQuad b c d e then
        some (Char.ofNat
          (((b.toNat % 0x08 * 0x40 + payload c) * 0x40 + payload d) * 0x40 + payload e), 3)
      else none

/-- Decodes bytes, of which the first `skip` belong to a character already decoded. -/
def decodeFrom (skip : Nat) : List UInt8 → Text
  | [] => []
  | b :: rest =>
    match skip with
    | k + 1 => decodeFrom k rest
    | 0 =>
      match leading b rest with
      | some (c, k) => .char c :: decodeFrom k rest
      | none => .stray b :: decodeFrom 0 rest

/-- Decodes bytes. Where no well-formed character starts, one byte becomes a stray glyph and
decoding goes on behind it. -/
def ofBytes (bytes : List UInt8) : Text :=
  decodeFrom 0 bytes

/-! ## Order -/

/-- A number that tells glyphs apart. -/
def rank : Glyph → Nat
  | .stray b => b.toNat
  | .char c => c.toNat + 256

/-- The sort key of a text: its bytes, and behind them, after a mark below all bytes, what tells
apart the texts that have the same bytes. -/
def sortKey (t : Text) : List Nat :=
  (toBytes t).map (·.toNat + 1) ++ 0 :: t.map rank

/-- The order of texts by their bytes. -/
def Before (t u : Text) : Prop :=
  sortKey t < sortKey u

instance (t u : Text) : Decidable (Before t u) :=
  inferInstanceAs (Decidable (sortKey t < sortKey u))

/-! ## Cutting -/

/-- Whether `t` starts with `u`. -/
def startsWith (t u : Text) : Bool :=
  u.isPrefixOf t

/-- Splits a text at the first character `c`: what stands before it and, if `c` occurs, what
stands behind it. -/
def cut (c : Char) : Text → Text × Option Text
  | [] => ([], none)
  | g :: t =>
    if g = .char c then ([], some t)
    else
      let (before, behind) := cut c t
      (g :: before, behind)

end Text

end ExprTyping
