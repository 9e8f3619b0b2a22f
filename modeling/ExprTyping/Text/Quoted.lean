import ExprTyping.Text.Basic
import ExprTyping.Text.Printable

/-!
# Quoted text

Texts from the outside are shown between double quotes in messages. A printable character stands
for itself; a quote and a backslash get a backslash in front; the usual control characters have
one-letter names; any other character is written by its number, and so is a stray byte.
-/

namespace ExprTyping.Text

/-- The digit of value `n`, in lower case, for `n` below 16. -/
def hexDigit (n : Nat) : Char :=
  if n < 10 then Char.ofNat (0x30 + n) else Char.ofNat (0x61 + (n - 10))

/-- The last `width` hexadecimal digits of `n`. -/
def hexDigits : Nat → Nat → List Char
  | 0, _ => []
  | width + 1, n => hexDigits width (n / 16) ++ [hexDigit (n % 16)]

/-- The one-letter name of a control character. -/
def controlName? (c : Char) : Option Char :=
  match c.toNat with
  | 0x07 => some 'a'
  | 0x08 => some 'b'
  | 0x09 => some 't'
  | 0x0A => some 'n'
  | 0x0B => some 'v'
  | 0x0C => some 'f'
  | 0x0D => some 'r'
  | _ => none

/-- A character as it is written between quotes. -/
def quoteChar (c : Char) : List Char :=
  if c = '"' || c = '\\' then ['\\', c]
  else if isPrintable c then [c]
  else match controlName? c with
    | some name => ['\\', name]
    | none =>
      let n := c.toNat
      if n < 0x20 || n = 0x7F then '\\' :: 'x' :: hexDigits 2 n
      else if n < 0x10000 then '\\' :: 'u' :: hexDigits 4 n
      else '\\' :: 'U' :: hexDigits 8 n

/-- A glyph as it is written between quotes. -/
def quoteGlyph : Glyph → List Char
  | .char c => quoteChar c
  | .stray b => '\\' :: 'x' :: hexDigits 2 b.toNat

/-- A text between double quotes. -/
def quote (t : Text) : Text :=
  ofChars ('"' :: t.flatMap quoteGlyph ++ ['"'])

end ExprTyping.Text
