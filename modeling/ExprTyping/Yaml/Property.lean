import ExprTyping.Yaml.Scalar

/-!
# Anchors, tags and directives

A node can have a name, by an anchor, under which it is used again, and a tag that says what kind
of value it is. Directives stand in front of a document: they give the version of the format and
abbreviations for tags.
-/

namespace ExprTyping.Yaml

/-- Whether a character can occur in the name of an anchor, a directive or a handle. -/
def isNameChar (c : Char) : Bool :=
  c.isAlphanum || c = '_' || c = '-'

/-! ## Anchors -/

/-- Whether the name of an anchor can end in front of these characters. -/
def endsAnchor (rest : List Char) : Bool :=
  endsWord rest || (rest.head?.any fun c => "?:,]\x7d%@`".toList.contains c)

/-- Reads the name of an anchor or of a use of one, from its sign on. -/
def anchorName (m : Mark) : Option (List Char × Mark) :=
  let (name, behind) := (m.advance 1).takeRun isNameChar
  if name.isEmpty || !endsAnchor behind.rest then none else some (name, behind)

/-! ## Tags -/

/-- Whether a character can occur in the address of a tag. -/
def isAddressChar (c : Char) : Bool :=
  isNameChar c || ";/?:@&=+$,.!~*'()[]".toList.contains c

/-- The number of bytes of the character that a byte starts. -/
def sequenceLength? (b : Nat) : Option Nat :=
  if b < 0x80 then some 1
  else if 0xC0 ≤ b && b < 0xE0 then some 2
  else if 0xE0 ≤ b && b < 0xF0 then some 3
  else if 0xF0 ≤ b && b < 0xF8 then some 4
  else none

/-- Where reading an address is with respect to bytes written by percent signs. -/
inductive AddressState where
  /-- Between characters. -/
  | outside
  /-- In front of the percent sign of one of `left + 1` more bytes of a character. -/
  | continued (left : Nat)
  /-- In front of the first digit of a byte; `left` more bytes follow if the character has
  started. -/
  | firstDigit (left : Option Nat)
  /-- In front of the second digit of a byte whose first one is `high`. -/
  | secondDigit (left : Option Nat) (high : Nat)

/-- The state behind a byte of a character. -/
def AddressState.afterByte (left : Option Nat) (byte : Nat) : Option AddressState :=
  match left with
  | some n =>
    if 0x80 ≤ byte && byte < 0xC0 then some (if n = 0 then .outside else .continued (n - 1))
    else none
  | none =>
    (sequenceLength? byte).map fun n => if n = 1 then .outside else .continued (n - 2)

/-- Reads the address of a tag: the bytes in reverse, and how many characters it takes up. -/
def addressFrom (state : AddressState) (sofar : List UInt8) (taken : Nat) :
    List Char → Option (List UInt8 × Nat)
  | [] => match state with
    | .outside => some (sofar.reverse, taken)
    | _ => none
  | c :: r =>
    match state with
    | .outside =>
      if c = '%' then addressFrom (.firstDigit none) sofar (taken + 1) r
      else if isAddressChar c then
        addressFrom .outside (c.toNat.toUInt8 :: sofar) (taken + 1) r
      else some (sofar.reverse, taken)
    | .continued left =>
      if c = '%' then addressFrom (.firstDigit (some left)) sofar (taken + 1) r else none
    | .firstDigit left =>
      match hexValue? c with
      | some high => addressFrom (.secondDigit left high) sofar (taken + 1) r
      | none => none
    | .secondDigit left high =>
      match hexValue? c with
      | none => none
      | some low =>
        let byte := high * 16 + low
        match AddressState.afterByte left byte with
        | some next => addressFrom next (byte.toUInt8 :: sofar) (taken + 1) r
        | none => none

/-- Reads the address of a tag. It may be empty only if something stands in front of it. -/
def address (inFront : Bool) (m : Mark) : Option (List UInt8 × Mark) := do
  let (bytes, taken) ← addressFrom .outside [] 0 m.rest
  if taken = 0 && !inFront then none else some (bytes, m.advance taken)

/-- The bytes of characters that are all below 128. -/
def plainBytes (cs : List Char) : List UInt8 :=
  cs.map fun c => c.toNat.toUInt8

/-- A tag as it is written: a handle, which is an abbreviation or empty, and the rest. -/
structure WrittenTag where
  /-- The handle. -/
  handle : List UInt8
  /-- What follows the handle. -/
  suffix : List UInt8
  deriving BEq

/-- Reads a handle: an exclamation mark, a name, and a second mark if there is one. -/
def tagHandle (m : Mark) : Option (List Char × Mark) :=
  match m.rest with
  | '!' :: _ =>
    let (name, behind) := (m.advance 1).takeRun isNameChar
    if behind.sees (· = '!') then some ('!' :: name ++ ['!'], behind.advance 1)
    else some ('!' :: name, behind)
  | _ => none

/-- Reads a tag, from its exclamation mark on. A blank has to follow. -/
def writtenTag (m : Mark) : Option (WrittenTag × Mark) := do
  let (tag, behind) ← match m.rest with
    | '!' :: '<' :: _ => do
      let (suffix, behind) ← address false (m.advance 2)
      if behind.sees (· = '>') then some (WrittenTag.mk [] suffix, behind.advance 1) else none
    | _ => do
      let (handle, behind) ← tagHandle m
      if 1 < handle.length && handle.getLast? = some '!' then
        let (suffix, behind) ← address false behind
        some (WrittenTag.mk (plainBytes handle) suffix, behind)
      else
        -- It was no handle after all, and belongs to the rest.
        let (suffix, behind) ← address true behind
        let suffix := plainBytes (handle.drop 1) ++ suffix
        if suffix.isEmpty then some (WrittenTag.mk [] (plainBytes handle), behind)
        else some (WrittenTag.mk (plainBytes ['!']) suffix, behind)
  if endsWord behind.rest then some (tag, behind) else none

/-! ## Directives -/

/-- What a directive says. -/
inductive Directive where
  /-- The version of the format. -/
  | version (major minor : Nat)
  /-- That a handle abbreviates the start of an address. -/
  | abbreviation (handle address : List UInt8)
  deriving BEq

/-- Reads a number of one or two digits. -/
def versionNumber (m : Mark) : Option (Nat × Mark) :=
  let (digits, behind) := m.takeRun Char.isDigit
  if digits.isEmpty || 2 < digits.length then none
  else some (digits.foldl (fun n d => n * 10 + (d.toNat - 0x30)) 0, behind)

/-- Reads a directive, from its percent sign on. It takes up the whole line. -/
def directive (m : Mark) : Option (Directive × Mark) := do
  let (name, behind) := (m.advance 1).takeRun isNameChar
  if !endsWord behind.rest then none
  let (d, behind) ←
    if name = "YAML".toList then do
      let (major, behind) ← versionNumber behind.skipBlanks
      if !behind.sees (· = '.') then none
      let (minor, behind) ← versionNumber (behind.advance 1)
      some (Directive.version major minor, behind)
    else if name = "TAG".toList then do
      let (handle, behind) ← tagHandle behind.skipBlanks
      if handle.getLast? != some '!' || !behind.sees isBlank then none
      let (start, behind) ← address false behind.skipBlanks
      if !endsWord behind.rest then none
      some (Directive.abbreviation (plainBytes handle) start, behind)
    else none
  let behind ← behind.skipToNextLine?
  some (d, behind)

end ExprTyping.Yaml
