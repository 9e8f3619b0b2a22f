import ExprTyping.Binary64.Decimal
import ExprTyping.Position

/-!
# Tokens

The words of expressions and type annotations, each with the position of its first character, and
the faults that reading a word can meet.
-/

namespace ExprTyping

/-- A word of the language. -/
inductive Tok where
  | plus
  | minus
  | times
  | divide
  | comma
  | openParen
  | closeParen
  | openBracket
  | closeBracket
  | and
  | or
  | not
  | eq
  | ge
  | gt
  | le
  | lt
  | ne
  /-- A numeral with a point or an exponent. -/
  | real (x : Binary64)
  /-- A numeral of digits alone. -/
  | integer (n : Int64)
  /-- A name. -/
  | ident (name : Text)
  deriving DecidableEq, Repr

namespace Tok

/-- The name of a kind of word, as messages show it. -/
def kind : Tok → String
  | .plus => "+"
  | .minus => "-"
  | .times => "*"
  | .divide => "/"
  | .comma => ","
  | .openParen => "("
  | .closeParen => ")"
  | .openBracket => "["
  | .closeBracket => "]"
  | .and => "and"
  | .or => "or"
  | .not => "not"
  | .eq => "=="
  | .ge => ">="
  | .gt => ">"
  | .le => "<="
  | .lt => "<"
  | .ne => "!="
  | .real _ => "float"
  | .integer _ => "integer"
  | .ident _ => "identifier"

/-- A word with its value: numbers are marked by their kind and names stand in angle brackets. -/
def render : Tok → Text
  | .real x => "f" ++ x.render
  | .integer n => "i" ++ Text.ofInt n.toInt
  | .ident name => "<" ++ name ++ ">"
  | t => t.kind

end Tok

/-- A word and where it starts. -/
structure Token where
  /-- The word. -/
  tok : Tok
  /-- The position of its first character. -/
  pos : Pos
  deriving DecidableEq, Repr

/-- What can be wrong with a word. -/
inductive ScanError where
  /-- No word starts with this character. -/
  | unexpectedChar (c : Char)
  /-- An exponent without digits; `read` is the numeral as far as it was read. -/
  | malformedNumber (read : List Char)
  /-- A numeral with a point or an exponent that is beyond the format. -/
  | realOutOfRange
  /-- A numeral with a point or an exponent that starts with a digit other than 0 to 9. -/
  | realMalformed
  /-- An integer beyond 64 bits. -/
  | integerOutOfRange
  /-- An integer that starts with a digit other than 0 to 9. -/
  | integerMalformed
  deriving DecidableEq, Repr

/-- A scan error and the position reading had reached. -/
structure ScanFault where
  /-- What was wrong. -/
  error : ScanError
  /-- The position of the last character read. -/
  pos : Pos
  deriving DecidableEq, Repr

/-- What reading one word gives. -/
inductive Item where
  /-- A word. -/
  | token (t : Token)
  /-- A fault; reading can go on behind it. -/
  | fault (f : ScanFault)
  deriving DecidableEq, Repr

end ExprTyping
