import ExprTyping.Clock.Moment
import ExprTyping.Text.Basic

/-!
# Layouts by example

A layout shows how a moment is written by writing one fixed moment: Monday, 2 January 2006,
15:04:05. A part of the layout that spells a field of that moment is replaced by the same field
of the moment to be written, and all else stands for itself. The names of the month and of the
weekday count as such parts only where no small letter follows them.
-/

namespace ExprTyping.Layout

/-- A field of a moment, with its form. -/
inductive Field where
  | monthName
  | monthShort
  | weekdayName
  | weekdayShort
  | zone
  | month
  | day
  | hour12
  | minute
  | second
  | shortYear
  | hour
  | year
  | paddedDay
  | paddedYearDay
  | halfDay
  | offset
  deriving DecidableEq, Repr

/-- The English names of the months. -/
def monthNames : List String :=
  ["January", "February", "March", "April", "May", "June", "July", "August", "September",
    "October", "November", "December"]

/-- The English names of the days of the week. -/
def weekdayNames : List String :=
  ["Sunday", "Monday", "Tuesday", "Wednesday", "Thursday", "Friday", "Saturday"]

/-- The entry of a list of names, counted from 0. -/
def nameAt (names : List String) (i : Int) : Text :=
  ((names[i.toNat]?).getD "" : String)

/-- A number with a least width, filled up in front, behind its sign if it has one. -/
def padded (fill : Char) (width : Nat) (n : Int) : Text :=
  let digits := Text.ofNat n.natAbs
  (if n < 0 then [.char '-'] else []) ++
    List.replicate (width - digits.length) (.char fill) ++ digits

/-- The text of a field of a moment. -/
def Field.render (m : Moment) : Field → Text
  | .monthName => nameAt monthNames (m.date.month - 1)
  | .monthShort => (nameAt monthNames (m.date.month - 1)).take 3
  | .weekdayName => nameAt weekdayNames m.weekday
  | .weekdayShort => (nameAt weekdayNames m.weekday).take 3
  | .zone => "UTC"
  | .month => padded '0' 2 m.date.month
  | .day => padded '0' 2 m.date.day
  | .hour12 => padded '0' 2 m.hour12
  | .minute => padded '0' 2 m.minute
  | .second => padded '0' 2 m.secondOfMinute
  | .shortYear => padded '0' 2 (max m.date.year 0 % 100)
  | .hour => padded '0' 2 m.hour
  | .year => padded '0' 4 m.date.year
  | .paddedDay => padded ' ' 2 m.date.day
  | .paddedYearDay => padded ' ' 3 m.yearDay
  | .halfDay => if m.hour ≥ 12 then "PM" else "AM"
  | .offset => "+0000"

/-- The spellings of fields. Of two that start alike the longer one comes first. -/
def spellings : List (String × Field) :=
  [("January", .monthName), ("Jan", .monthShort), ("Monday", .weekdayName),
    ("Mon", .weekdayShort), ("MST", .zone), ("01", .month), ("02", .day), ("03", .hour12),
    ("04", .minute), ("05", .second), ("06", .shortYear), ("15", .hour), ("2006", .year),
    ("__2", .paddedYearDay), ("_2", .paddedDay), ("PM", .halfDay), ("-0700", .offset)]

/-- Whether a text starts with a small letter. -/
def startsSmall : Text → Bool
  | .char c :: _ => c.isLower
  | _ => false

/-- Whether the spelling of a field counts at the start of a text. A short name followed by a
small letter is part of another word, and so is a day in front of the rest of a year. -/
def spells (t : Text) (spelling : String × Field) : Bool :=
  let word := Text.ofString spelling.1
  Text.startsWith t word &&
    match spelling.2 with
    | .monthShort => !startsSmall (t.drop word.length)
    | .weekdayShort => !startsSmall (t.drop word.length)
    | .paddedDay => !Text.startsWith t "_2006"
    | _ => true

/-- The field that is spelled at the start of a text, with the length of its spelling. -/
def fieldAt? (t : Text) : Option (Field × Nat) :=
  (spellings.find? (spells t)).map fun s => (s.2, s.1.length)

/-- Writes a moment by a layout of which the first `skip` glyphs are done. -/
def renderFrom (m : Moment) (skip : Nat) : Text → Text
  | [] => []
  | g :: t =>
    match skip with
    | k + 1 => renderFrom m k t
    | 0 =>
      match fieldAt? (g :: t) with
      | some (field, length) => field.render m ++ renderFrom m (length - 1) t
      | none => g :: renderFrom m 0 t

/-- Writes a moment by a layout. -/
def render (m : Moment) (layout : Text) : Text :=
  renderFrom m 0 layout

end ExprTyping.Layout
