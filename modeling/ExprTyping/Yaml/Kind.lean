import ExprTyping.Binary64.Decimal
import ExprTyping.Clock.Moment
import ExprTyping.Text.Base64
import ExprTyping.Yaml.Node

/-!
# Kinds of scalars

A plain scalar is what it looks like: nothing, a truth value, a number, a time, or else a text. A
tag can ask for a kind.

- `Kind.ofChars` says what a scalar looks like;
- `ScalarValue.of?` gives the value of a scalar with its tag.
-/

namespace ExprTyping.Yaml

/-- What a scalar looks like. -/
inductive Kind where
  | null
  | boolean
  /-- A whole number; `signed` says that it has its place in 64 bits with a sign. -/
  | integer (signed : Bool)
  | float
  | timestamp
  | text
  deriving DecidableEq, Repr

/-! ## Whole numbers -/

/-- The value of a digit or letter in numerals of any base. -/
def digitValue? (c : Char) : Option Nat :=
  if c.isDigit then some (c.toNat - '0'.toNat)
  else if c.isLower then some (c.toNat - 'a'.toNat + 10)
  else if c.isUpper then some (c.toNat - 'A'.toNat + 10)
  else none

/-- The number that digits of a base denote, behind digits that denote `high`. -/
def magnitudeFrom (base high : Nat) : List Char → Option Nat
  | [] => some high
  | c :: r =>
    match digitValue? c with
    | some d => if d < base then magnitudeFrom base (high * base + d) r else none
    | none => none

/-- The number that one or more digits of a base denote. -/
def magnitude? (base : Nat) (ds : List Char) : Option Nat :=
  if ds.isEmpty then none else magnitudeFrom base 0 ds

/-- The number that a numeral without a sign denotes. A letter behind a zero gives the base, and a
zero alone means base 8. -/
def unsigned? (ds : List Char) : Option Nat :=
  match ds with
  | '0' :: c :: d :: r =>
    if c.toLower = 'b' then magnitudeFrom 2 0 (d :: r)
    else if c.toLower = 'o' then magnitudeFrom 8 0 (d :: r)
    else if c.toLower = 'x' then magnitudeFrom 16 0 (d :: r)
    else magnitudeFrom 8 0 (c :: d :: r)
  | '0' :: r => magnitudeFrom 8 0 r
  | ds => magnitude? 10 ds

/-- Splits off a sign. -/
def splitSign : List Char → Option Char × List Char
  | c :: r => if c = '-' || c = '+' then (some c, r) else (none, c :: r)
  | [] => (none, [])

/-- Whether a number with a sign has its place in 64 bits. -/
def fitsSigned (sign : Option Char) (n : Nat) : Bool :=
  n < Nat.pow 2 63 || (sign = some '-' && n = Nat.pow 2 63)

/-- Whether digits of a base behind a sign denote a number that has its place in 64 bits. -/
def isSigned (base : Nat) (ds : List Char) : Bool :=
  let (sign, ds) := splitSign ds
  sign.isSome && (magnitude? base ds).any (fitsSigned sign)

/-- The kind of a whole number, if it is one. In base 2 and base 8 the sign can also stand behind
the letter of the base. -/
def integer? (cs : List Char) : Option Kind :=
  let (sign, ds) := splitSign cs
  match unsigned? ds with
  | some n =>
    if fitsSigned sign n then some (.integer true)
    else if sign.isNone && n < Nat.pow 2 64 then some (.integer false)
    else none
  | none =>
    match cs with
    | '0' :: 'b' :: r => if isSigned 2 r then some (.integer true) else none
    | '0' :: 'o' :: r => if isSigned 8 r then some (.integer true) else none
    | _ => none

/-! ## Other numbers -/

/-- Reads the digits in front of and behind the point of a numeral, if there are any. -/
def mantissa? (cs : List Char) : Option (List Char × List Char × List Char) :=
  let whole := cs.takeWhile Char.isDigit
  let (fraction, rest) := match cs.drop whole.length with
    | '.' :: r => (r.takeWhile Char.isDigit, r.dropWhile Char.isDigit)
    | r => ([], r)
  if whole.isEmpty && fraction.isEmpty then none else some (whole, fraction, rest)

/-- Reads a decimal numeral without a sign. -/
def numeral? (cs : List Char) : Option Numeral := do
  let (whole, fraction, rest) ← mantissa? cs
  match rest with
  | [] => some ⟨whole, fraction, false, []⟩
  | e :: r =>
    let (sign, ds) := splitSign r
    if e.toLower = 'e' && !ds.isEmpty && ds.all Char.isDigit then
      some ⟨whole, fraction, sign = some '-', ds⟩
    else none

/-- Whether this is a decimal numeral within the range of the format. -/
def isFloat (cs : List Char) : Bool :=
  (numeral? (splitSign cs).2).any fun n => !n.value.isInfinite

/-! ## Times -/

/-- Reads a number of one or two digits. -/
def shortNumber? : List Char → Option (Nat × List Char)
  | c :: d :: r =>
    if !c.isDigit then none
    else if d.isDigit then some (Numeral.natOfDigits [c, d], r)
    else some (Numeral.digitValue c, d :: r)
  | [c] => if c.isDigit then some (Numeral.digitValue c, []) else none
  | [] => none

/-- Reads a given character. -/
def expect? (wanted : Char) : List Char → Option (List Char)
  | c :: r => if c = wanted then some r else none
  | [] => none

/-- Reads a time of day, with a fraction of a second if there is one. -/
def timeOfDay? (cs : List Char) : Option (List Char) := do
  let (hour, cs) ← shortNumber? cs
  let (minute, cs) ← shortNumber? (← expect? ':' cs)
  let (second, cs) ← shortNumber? (← expect? ':' cs)
  if 24 ≤ hour || 60 ≤ minute || 60 ≤ second then none
  match cs with
  | c :: d :: r =>
    if (c = '.' || c = ',') && d.isDigit then some (r.dropWhile Char.isDigit) else some cs
  | _ => some cs

/-- Whether this is a zone: a letter, or hours and minutes away from it. -/
def isZone : List Char → Bool
  | ['Z'] => true
  | [sign, a, b, ':', c, d] =>
    (sign = '+' || sign = '-') && [a, b, c, d].all Char.isDigit &&
      Numeral.natOfDigits [a, b] ≤ 24 && Numeral.natOfDigits [c, d] ≤ 60
  | _ => false

/-- Reads a date. It has to exist. -/
def date? (cs : List Char) : Option (List Char) := do
  let year := cs.takeWhile Char.isDigit
  if year.length != 4 then none
  let (month, cs) ← shortNumber? (← expect? '-' (cs.drop 4))
  let (day, cs) ← shortNumber? (← expect? '-' cs)
  if month = 0 || 12 < month then none
  let d : Date := ⟨Numeral.natOfDigits year, month, day⟩
  if Date.ofDays d.toDays = d then some cs else none

/-- Whether this is a date, alone or with a time of day. The time has a zone behind the letter `T`
and none behind a blank. -/
def isTimestamp (cs : List Char) : Bool :=
  match date? cs with
  | none => false
  | some [] => true
  | some (c :: r) =>
    if c = 'T' || c = 't' then (timeOfDay? r).any isZone
    else if c = ' ' then (timeOfDay? (r.dropWhile (· = ' '))).any List.isEmpty
    else false

/-! ## Kinds -/

/-- The words that are no texts. -/
def wordKind? (word : String) : Option Kind :=
  if ["", "~", "null", "Null", "NULL"].contains word then some .null
  else if ["true", "True", "TRUE", "false", "False", "FALSE"].contains word then some .boolean
  else if [".nan", ".NaN", ".NAN", ".inf", ".Inf", ".INF", "+.inf", "+.Inf", "+.INF", "-.inf",
    "-.Inf", "-.INF"].contains word then some .float
  else none

/-- The kind of a number. Underscores between the digits do not count. -/
def numberKind (cs : List Char) : Kind :=
  let digits := cs.filter (· != '_')
  match integer? digits with
  | some k => k
  | none => if isFloat digits then .float else .text

/-- What a scalar looks like; `timed` says that it can be a time. -/
def Kind.ofChars (timed : Bool) (cs : List Char) : Kind :=
  match wordKind? (String.ofList cs) with
  | some k => k
  | none =>
    match cs with
    | [] => .text
    | c :: _ =>
      if c = '.' then (if isFloat cs then .float else .text)
      else if c.isDigit || c = '+' || c = '-' then
        if timed && isTimestamp cs then .timestamp else numberKind cs
      else .text

/-! ## Values -/

/-- The value of a scalar. -/
inductive ScalarValue where
  /-- Nothing. -/
  | null
  /-- A text. -/
  | text (t : Text)
  /-- Something else, with the text it is written as. -/
  | other (t : Text)

namespace ScalarValue

/-- What a scalar is read as where a text is wanted; nothing for a null. -/
def text? : ScalarValue → Option Text
  | .null => none
  | .text t => some t
  | .other t => some t

/-- The value of a scalar that has to look like one of some kinds. -/
def ofKinds? (kinds : List Kind) (timed : Bool) (cs : List Char) : Option ScalarValue :=
  if kinds.contains (Kind.ofChars timed cs) then some (.other (.ofChars cs)) else none

/-- The value of a scalar with a tag; `none` if it is not what the tag says. A tag that is not
known asks for nothing. -/
def ofTagged? (tag : Text) (cs : List Char) : Option ScalarValue :=
  if tag = Text.ofString "!!binary" then
    (Base64.decode? cs).map fun bytes => .text (.ofBytes bytes)
  else if tag = Text.ofString "!!null" then
    if Kind.ofChars false cs = .null then some .null else none
  else if tag = Text.ofString "!!bool" then ofKinds? [.boolean] false cs
  else if tag = Text.ofString "!!int" then ofKinds? [.integer true, .integer false] false cs
  else if tag = Text.ofString "!!float" then ofKinds? [.float, .integer true] false cs
  else if tag = Text.ofString "!!timestamp" then ofKinds? [.timestamp] true cs
  else some (.text (.ofChars cs))

/-- The value of a scalar; `none` if it is not what its tag says. Without a tag only a plain one
can be something else than a text. -/
def of? (tag : Option Text) (cs : List Char) (plain : Bool) : Option ScalarValue :=
  match tag with
  | some tag => ofTagged? tag cs
  | none =>
    if !plain then some (.text (.ofChars cs))
    else match Kind.ofChars true cs with
      | .null => some .null
      | .text => some (.text (.ofChars cs))
      | _ => some (.other (.ofChars cs))

end ScalarValue

end ExprTyping.Yaml
