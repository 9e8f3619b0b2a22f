import ExprTyping.Text.Basic
import ExprTyping.Text.CodeRanges

/-!
# Blanks

White space in the sense of Unicode's White_Space property, and the removal of blanks at both
ends of a text. A stray byte is never blank.
-/

namespace ExprTyping.Text

/-- The code points of all blanks, in ascending ranges. -/
def blankRanges : List (Nat × Nat) := [
  (0x9, 0xD), (0x20, 0x20), (0x85, 0x85), (0xA0, 0xA0), (0x1680, 0x1680), (0x2000, 0x200A),
  (0x2028, 0x2029), (0x202F, 0x202F), (0x205F, 0x205F), (0x3000, 0x3000)]

/-- Whether a glyph is a blank. -/
def isBlank : Glyph → Bool
  | .char c => inRanges c.toNat blankRanges
  | .stray _ => false

/-- Drops the blanks in front. -/
def trimStart (t : Text) : Text :=
  t.dropWhile isBlank

/-- Drops the blanks at the end. -/
def trimEnd (t : Text) : Text :=
  (t.reverse.dropWhile isBlank).reverse

/-- Drops the blanks at both ends. -/
def trim (t : Text) : Text :=
  trimEnd (trimStart t)

end ExprTyping.Text
