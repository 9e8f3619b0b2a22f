import ExprTyping.Clock.Layout

/-!
# Time patterns

A pattern is text in which a percent sign and a letter stand for a part of a moment. Most letters
abbreviate a layout by example; the others are computed.

Neighbouring layouts, and plain text that holds nothing a layout could mistake for a field, are
joined to one layout. A name can change its meaning by the text that follows it: `%aday` is the
full name of the weekday, because `Monday` is.
-/

namespace ExprTyping

/-- A part of a pattern that no layout can express. -/
inductive ClockField where
  /-- The century, with two digits. -/
  | century
  /-- The day of the year, with three digits. -/
  | yearDay
  /-- The hour, filled up with a blank. -/
  | hour
  /-- The hour on a clock face, filled up with a blank. -/
  | hour12
  /-- The week of the year, weeks starting on Sunday. -/
  | weekOfSunday
  /-- The week of the year, weeks starting on Monday. -/
  | weekOfMonday
  /-- The week that belongs to the year of its Thursday. -/
  | isoWeek
  /-- The day of the week, from Monday being 1 to Sunday being 7. -/
  | weekdayFromMonday
  /-- The day of the week, Sunday being 0. -/
  | weekday
  deriving DecidableEq, Repr

/-- The text of a computed part. -/
def ClockField.render (m : Moment) : ClockField → Text
  | .century =>
    let century := m.date.year.tdiv 100
    (if century < 10 then [.char '0'] else []) ++ Text.ofInt century
  | .yearDay => Layout.padded '0' 3 m.yearDay
  | .hour => Layout.padded ' ' 2 m.hour
  | .hour12 => Layout.padded ' ' 2 m.hour12
  | .weekOfSunday => Layout.padded '0' 2 ((m.yearDay + 6 - m.weekday) / 7)
  | .weekOfMonday => Layout.padded '0' 2 ((m.yearDay + (7 - m.weekday) % 7) / 7)
  | .isoWeek => Layout.padded '0' 2 m.isoWeek
  | .weekdayFromMonday => Text.ofInt (if m.weekday = 0 then 7 else m.weekday)
  | .weekday => Text.ofInt m.weekday

/-- A piece of a pattern. -/
inductive Piece where
  /-- Text that stands for itself. -/
  | plain (t : Text)
  /-- A layout by example. -/
  | layout (t : Text)
  /-- A computed part. -/
  | field (f : ClockField)
  deriving DecidableEq, Repr

/-- Why a text is no pattern. -/
inductive PatternError where
  /-- The text ends with a percent sign. -/
  | strayPercent
  /-- The byte behind a percent sign has no meaning. -/
  | unknownSpecifier (byte : Nat)
  deriving DecidableEq, Repr

/-- The message of a pattern error. -/
def PatternError.message : PatternError → Text
  | .strayPercent => "failed to compile format: stray % at the end of pattern"
  | .unknownSpecifier byte =>
    "failed to compile format: pattern compilation failed: lookup failed: '%" ++
      [Glyph.char (Char.ofNat byte)] ++ "' was not found in specification set"

/-- A time pattern, as pieces. -/
abbrev Pattern := List Piece

namespace Pattern

/-- The meaning of the letter behind a percent sign. -/
def specifier? (c : Char) : Option Piece :=
  match c with
  | 'A' => some (.layout "Monday")
  | 'a' => some (.layout "Mon")
  | 'B' => some (.layout "January")
  | 'b' => some (.layout "Jan")
  | 'C' => some (.field .century)
  | 'c' => some (.layout "Mon Jan _2 15:04:05 2006")
  | 'D' => some (.layout "01/02/06")
  | 'd' => some (.layout "02")
  | 'e' => some (.layout "_2")
  | 'F' => some (.layout "2006-01-02")
  | 'H' => some (.layout "15")
  | 'h' => some (.layout "Jan")
  | 'I' => some (.layout "03")
  | 'j' => some (.field .yearDay)
  | 'k' => some (.field .hour)
  | 'l' => some (.field .hour12)
  | 'M' => some (.layout "04")
  | 'm' => some (.layout "01")
  | 'n' => some (.plain "\n")
  | 'p' => some (.layout "PM")
  | 'R' => some (.layout "15:04")
  | 'r' => some (.layout "03:04:05 PM")
  | 'S' => some (.layout "05")
  | 'T' => some (.layout "15:04:05")
  | 't' => some (.plain "\t")
  | 'U' => some (.field .weekOfSunday)
  | 'u' => some (.field .weekdayFromMonday)
  | 'V' => some (.field .isoWeek)
  | 'v' => some (.layout "_2-Jan-2006")
  | 'W' => some (.field .weekOfMonday)
  | 'w' => some (.field .weekday)
  | 'X' => some (.layout "15:04:05")
  | 'x' => some (.layout "01/02/06")
  | 'Y' => some (.layout "2006")
  | 'y' => some (.layout "06")
  | 'Z' => some (.layout "MST")
  | 'z' => some (.layout "-0700")
  | '%' => some (.plain "%")
  | _ => none

/-- The words that a layout takes for fields. -/
def fieldWords : List String := ["Mon", "Jan", "MST", "PM", "pm"]

/-- Whether a word occurs in a text. -/
def occurs (word : Text) : Text → Bool
  | [] => word.isEmpty
  | g :: t => Text.startsWith (g :: t) word || occurs word t

/-- Whether a glyph is one of the digits 0 to 9. -/
def isDigitGlyph : Glyph → Bool
  | .char c => c.isDigit
  | .stray _ => false

/-- Whether a piece may be joined to its neighbours: a layout, or text without digits and words
that a layout takes for fields. -/
def joins : Piece → Bool
  | .plain t => !t.any isDigitGlyph && !fieldWords.any fun w => occurs w t
  | .layout _ => true
  | .field _ => false

/-- Two neighbours in one; text stays text only with text. -/
def joined : Piece → Piece → Option Piece
  | .plain t, .plain u => some (.plain (t ++ u))
  | .plain t, .layout u => some (.layout (t ++ u))
  | .layout t, .plain u => some (.layout (t ++ u))
  | .layout t, .layout u => some (.layout (t ++ u))
  | _, _ => none

/-- Adds a piece behind the pieces so far, the last of which comes first. -/
def push (sofar : List Piece) (p : Piece) : List Piece :=
  match sofar with
  | [] => [p]
  | q :: rest =>
    if joins q && joins p then
      match joined q p with
      | some r => r :: rest
      | none => p :: q :: rest
    else p :: q :: rest

/-- Adds the text read so far, if there is any. -/
def pushPlain (sofar : List Piece) (reversed : Text) : List Piece :=
  if reversed.isEmpty then sofar else push sofar (.plain reversed.reverse)

/-- Reads a pattern: the pieces so far, the plain text behind them in reverse, and the rest. -/
def read (sofar : List Piece) (reversed : Text) : Text → Except PatternError (List Piece)
  | [] => .ok (pushPlain sofar reversed).reverse
  | [g] =>
    if g = .char '%' then .error .strayPercent else .ok (pushPlain sofar (g :: reversed)).reverse
  | g :: h :: t =>
    if g = .char '%' then
      match specifier? (Char.ofNat h.lead) with
      | some p => read (push (pushPlain sofar reversed) p) [] t
      | none => .error (.unknownSpecifier h.lead)
    else read sofar (g :: reversed) (h :: t)

/-- Reads a pattern. -/
def ofText (t : Text) : Except PatternError Pattern :=
  read [] [] t

/-- Writes a moment by a pattern. -/
def render (m : Moment) (p : Pattern) : Text :=
  p.flatMap fun
    | .plain t => t
    | .layout t => Layout.render m t
    | .field f => f.render m

end Pattern

end ExprTyping
