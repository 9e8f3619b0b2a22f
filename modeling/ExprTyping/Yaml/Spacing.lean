import ExprTyping.Yaml.Mark

/-!
# What stands between two tokens

Blanks, line breaks and comments. A tab is a blank inside brackets and behind a token on its
line, but it is no indentation: where a key could start, it is not skipped. Behind a comment the
next lines are searched for further comments, and what stands in front of those is skipped
whatever it is, tabs included. The search has a limited reach.
-/

namespace ExprTyping.Yaml

/-- How far behind a comment, or behind a token, a further comment is looked for. -/
def commentReach : Nat := 511

/-- Whether a comment follows within reach, with nothing in front of it but blanks and line
feeds. -/
def commentFollows : Nat → List Char → Bool
  | _, [] => false
  | reach, c :: r =>
    if c = '#' then true
    else match reach with
      | 0 => false
      | n + 1 => (isBlank c || c = '\n') && commentFollows n r

/-- Where skipping is with respect to comments. -/
inductive Spacing where
  /-- Outside comments. -/
  | outside
  /-- In a comment. -/
  | comment
  /-- On the way from one comment to the next. -/
  | toComment

/-- Skips to the next token, and says whether a key could start there: it can on a new line
outside brackets. A byte order mark at the start of a line is skipped, too. -/
def skipFrom (bracketed keyAllowed : Bool) : Spacing → List Char → Nat → Nat → Mark × Bool
  | _, [], line, col => (⟨[], line, col⟩, keyAllowed)
  | .outside, c :: r, line, col =>
    if col = 0 && isByteOrderMark c then skipFrom bracketed keyAllowed .outside r line 1
    else if isBreak c then skipFrom bracketed (!bracketed || keyAllowed) .outside r (line + 1) 0
    else if c = ' ' || (c = '\t' && (bracketed || !keyAllowed)) then
      skipFrom bracketed keyAllowed .outside r line (col + 1)
    else if c = '#' then skipFrom bracketed keyAllowed .comment r line (col + 1)
    else (⟨c :: r, line, col⟩, keyAllowed)
  | .comment, c :: r, line, col =>
    if c = '\n' && commentFollows (commentReach - 1) r then
      skipFrom bracketed keyAllowed .toComment r (line + 1) 0
    else if isBreak c then skipFrom bracketed (!bracketed || keyAllowed) .outside r (line + 1) 0
    else skipFrom bracketed keyAllowed .comment r line (col + 1)
  | .toComment, c :: r, line, col =>
    if c = '#' then skipFrom bracketed keyAllowed .comment r line (col + 1)
    else if isBreak c then skipFrom bracketed keyAllowed .toComment r (line + 1) 0
    else skipFrom bracketed keyAllowed .toComment r line (col + 1)

/-- Whether a comment follows on the same line within reach. -/
def commentOnLine : Nat → List Char → Bool
  | _, [] => false
  | reach, c :: r =>
    if c = '#' then true
    else match reach with
      | 0 => false
      | n + 1 => isBlank c && commentOnLine n r

/-- Skips the comment that may follow a token on its line. -/
def Mark.skipLineComment (m : Mark) : Mark :=
  if commentOnLine commentReach m.rest then m.skipLine else m

end ExprTyping.Yaml
