import ExprTyping.Text.Basic

/-!
# Bytes written in base 64

Every character of an alphabet of 64 stands for six bits, and four characters for three bytes. The
last group of four is filled up by equals signs.
-/

namespace ExprTyping.Base64

/-- The six bits that a character stands for. -/
def value? (c : Char) : Option Nat :=
  if c.isUpper then some (c.toNat - 'A'.toNat)
  else if c.isLower then some (c.toNat - 'a'.toNat + 26)
  else if c.isDigit then some (c.toNat - '0'.toNat + 52)
  else if c = '+' then some 62
  else if c = '/' then some 63
  else none

/-- The bytes that groups of six bits form. Bits that form no whole byte are dropped. -/
def bytes : List Nat → List UInt8
  | a :: b :: c :: d :: rest =>
    (a * 4 + b / 16).toUInt8 :: (b % 16 * 16 + c / 4).toUInt8 :: (c % 4 * 64 + d).toUInt8 ::
      bytes rest
  | [a, b, c] => [(a * 4 + b / 16).toUInt8, (b % 16 * 16 + c / 4).toUInt8]
  | [a, b] => [(a * 4 + b / 16).toUInt8]
  | _ => []

/-- Reads bytes. Line breaks between the characters do not count. -/
def decode? (cs : List Char) : Option (List UInt8) := do
  let cs := cs.filter fun c => c != '\n' && c != '\r'
  let padding := (cs.reverse.takeWhile (· = '=')).length
  if 2 < padding || cs.length % 4 != 0 then none
  let values ← (cs.take (cs.length - padding)).mapM value?
  some (bytes values)

end ExprTyping.Base64
