import ExprTyping.Yaml.BlockScalar
import ExprTyping.Yaml.Property
import ExprTyping.Yaml.Spacing

/-!
# Tokens of session files

A file is read as a stream of tokens. Indentation becomes tokens of its own: a collection of
indented lines starts with one and ends with another.

That something is a key shows only at the colon behind it. So wherever a key could start, its
place is kept as a *candidate*, and tokens are held back until the candidate is confirmed by a
colon, which puts the tokens of a key and perhaps of a mapping in front of it, or refuted: a key
stands on one line and has at most 1024 characters. A candidate that stands where the next entry
of a mapping is due must not be refuted.

The stream also runs two tokens ahead of the one that is handed out, so that a file can be
malformed by what stands behind its first document. `Tokens.readAll` has the tokens up to the end of
the file, or up to where it is malformed.
-/

namespace ExprTyping.Yaml

/-- A token. -/
inductive Token where
  /-- The end of the file. -/
  | fileEnd
  /-- The line that starts a document. -/
  | documentStart
  /-- The line that ends a document. -/
  | documentEnd
  /-- A directive. -/
  | directive (d : Directive)
  /-- The start of an indented sequence. -/
  | blockSequence
  /-- The start of an indented mapping. -/
  | blockMapping
  /-- The end of an indented collection. -/
  | blockEnd
  /-- An opening square bracket. -/
  | flowSequence
  /-- A closing square bracket. -/
  | flowSequenceEnd
  /-- An opening brace. -/
  | flowMapping
  /-- A closing brace. -/
  | flowMappingEnd
  /-- The dash of an item. -/
  | item
  /-- A comma between brackets. -/
  | comma
  /-- What stands in front of a key. -/
  | key
  /-- What stands in front of a value. -/
  | value
  /-- The name of the node that follows. -/
  | anchor (name : List Char)
  /-- A use of a named node. -/
  | reference (name : List Char)
  /-- The tag of the node that follows. -/
  | tag (t : WrittenTag)
  /-- A scalar; `plain` says that it is written without quotes and not as a block. -/
  | scalar (text : List Char) (plain : Bool)
  deriving BEq

/-- A place where a key could have started. -/
structure Candidate where
  /-- Whether it has been neither confirmed nor refuted. -/
  possible : Bool
  /-- Whether a key has to start there. -/
  required : Bool
  /-- The number of its first token. -/
  number : Nat
  /-- The line. -/
  line : Nat
  /-- The column. -/
  col : Nat

/-- The number of characters that a key can have. -/
def maxKeyLength : Nat := 1024

/-- The number of brackets, and of indented collections, that can stand inside one another. -/
def maxDepth : Nat := 10000

/-- The tokens of a file, as far as they have been read. -/
structure Tokens where
  /-- The position up to which the file has been read. -/
  mark : Mark
  /-- The tokens that have been read, numbered from 0. -/
  found : Array Token
  /-- How many of them have been taken. -/
  taken : Nat
  /-- Whether a key can start here. -/
  keyAllowed : Bool
  /-- The candidate of each open bracket, innermost first, and that outside all brackets. -/
  candidates : List Candidate
  /-- For the numbers of tokens that open candidates start with, how many brackets are around. -/
  watched : List (Nat × Nat)
  /-- The columns of the open indented collections, innermost first. -/
  columns : List Nat

namespace Tokens

/-- The tokens of a file. -/
def ofChars (cs : List Char) : Tokens where
  mark := .start cs
  found := #[]
  taken := 0
  keyAllowed := true
  candidates := [⟨false, false, 0, 0, 0⟩]
  watched := []
  columns := []

/-- The number of open brackets. -/
def brackets (ts : Tokens) : Nat :=
  ts.candidates.length - 1

/-- Whether a bracket is open. -/
def bracketed (ts : Tokens) : Bool :=
  !(ts.candidates.drop 1).isEmpty

/-- The column from which on something is inside the innermost indented collection. -/
def inner (ts : Tokens) : Nat :=
  match ts.columns with
  | [] => 0
  | col :: _ => col + 1

/-- The number of the next token. -/
def number (ts : Tokens) : Nat :=
  ts.found.size

/-- Adds a token at the end. -/
def push (t : Token) (ts : Tokens) : Tokens :=
  { ts with found := ts.found.push t }

/-- Adds a token in front of the token with a number, or at the end if that has been taken. -/
def insertAt (number : Nat) (t : Token) (ts : Tokens) : Tokens :=
  if number < ts.taken then ts.push t
  else { ts with found := ts.found.insertIdxIfInBounds number t }

/-- Reads on by some characters. -/
def advance (n : Nat) (ts : Tokens) : Tokens :=
  { ts with mark := ts.mark.advance n }

/-- Says whether a key can start at the next token. -/
def allowKey (allowed : Bool) (ts : Tokens) : Tokens :=
  { ts with keyAllowed := allowed }

/-! ## Candidates -/

/-- Stops watching a token. -/
def unwatch (number : Nat) (ts : Tokens) : Tokens :=
  { ts with watched := ts.watched.filter fun w => w.1 != number }

/-- Whether a candidate is refuted by its length or by the line. -/
def isPast (ts : Tokens) (c : Candidate) : Bool :=
  c.line < ts.mark.line || c.col + maxKeyLength < ts.mark.col

/-- Gives up the innermost candidate; `none` if a key has to start there. -/
def dropCandidate (ts : Tokens) : Option Tokens :=
  match ts.candidates with
  | [] => some ts
  | c :: outer =>
    if !c.possible then some ts
    else if c.required then none
    else some ({ ts with candidates := { c with possible := false } :: outer }.unwatch c.number)

/-- Keeps this place as a candidate, if a key can start here. -/
def saveCandidate (ts : Tokens) : Option Tokens :=
  if !ts.keyAllowed then some ts
  else do
    let required := !ts.bracketed && ts.columns.head? = some ts.mark.col
    let number := ts.number
    let ts ← ts.dropCandidate
    let c : Candidate := ⟨true, required, number, ts.mark.line, ts.mark.col⟩
    let depth := ts.brackets
    let ts := ts.unwatch number
    some { ts with
      candidates := c :: ts.candidates.drop 1
      watched := (number, depth) :: ts.watched }

/-- The innermost candidate if it is still open. One that is past is refuted; `none` if a key had
to start there. -/
def openCandidate (ts : Tokens) : Option (Option Candidate × Tokens) :=
  match ts.candidates with
  | [] => some (none, ts)
  | c :: outer =>
    if !c.possible then some (none, ts)
    else if !ts.isPast c then some (some c, ts)
    else if c.required then none
    else some (none, { ts with candidates := { c with possible := false } :: outer })

/-! ## Indentation -/

/-- Opens an indented collection at a column, if that is further right than the innermost one;
its token stands in front of the token with a number. Inside brackets indentation means
nothing. -/
def indent (col number : Nat) (t : Token) (ts : Tokens) : Option Tokens :=
  if ts.bracketed || col < ts.inner then some ts
  else if maxDepth ≤ ts.columns.length then none
  else some ({ ts with columns := col :: ts.columns }.insertAt number t)

/-- Closes the indented collections that are further right than a column, or all of them. -/
def dedent (col : Option Nat) (ts : Tokens) : Tokens :=
  if ts.bracketed then ts
  else
    let isOpen (c : Nat) : Bool := col.any (c ≤ ·)
    let closed := ts.columns.takeWhile (!isOpen ·)
    { ts with
      columns := ts.columns.drop closed.length
      found := closed.foldl (fun found _ => found.push .blockEnd) ts.found }

/-! ## Reading tokens -/

/-- What every token does that stands for a change of document. -/
def leaveDocument (ts : Tokens) : Option Tokens := do
  let ts ← (ts.dedent none).dropCandidate
  some (ts.allowKey false)

/-- Reads the end of the file, which lies on a line of its own. -/
def readFileEnd (ts : Tokens) : Option Tokens := do
  let m := ts.mark
  let m := if m.col = 0 then m else ⟨m.rest, m.line + 1, 0⟩
  let ts ← { ts with mark := m }.leaveDocument
  some (ts.push .fileEnd)

/-- Reads a directive. -/
def readDirective (ts : Tokens) : Option Tokens := do
  let ts ← ts.leaveDocument
  let (d, behind) ← directive ts.mark
  some ({ ts with mark := behind }.push (.directive d))

/-- Reads a line that starts or ends a document. -/
def readDocumentMark (t : Token) (ts : Tokens) : Option Tokens := do
  let ts ← ts.leaveDocument
  some ((ts.advance 3).push t)

/-- Reads an opening bracket. -/
def readOpening (t : Token) (ts : Tokens) : Option Tokens := do
  let ts ← ts.saveCandidate
  if maxDepth ≤ ts.brackets then none
  let c : Candidate := ⟨false, false, ts.number, ts.mark.line, ts.mark.col⟩
  let ts := { ts with candidates := c :: ts.candidates }
  some (((ts.allowKey true).advance 1).push t)

/-- Reads a closing bracket. -/
def readClosing (t : Token) (ts : Tokens) : Option Tokens := do
  let ts ← ts.dropCandidate
  let ts := match ts.candidates with
    | c :: outer =>
      if ts.bracketed then { ts.unwatch c.number with candidates := outer } else ts
    | [] => ts
  some (((ts.allowKey false).advance 1).push t)

/-- Reads a comma between brackets. -/
def readComma (ts : Tokens) : Option Tokens := do
  let ts ← ts.dropCandidate
  some (((ts.allowKey true).advance 1).push .comma)

/-- Reads the dash of an item. Inside brackets it is left to the reader of nodes to refuse it. -/
def readItem (ts : Tokens) : Option Tokens := do
  if !ts.bracketed && !ts.keyAllowed then none
  let ts ← ts.indent ts.mark.col ts.number .blockSequence
  let ts ← ts.dropCandidate
  some (((ts.allowKey true).advance 1).push .item)

/-- Reads the question mark in front of a key. -/
def readKey (ts : Tokens) : Option Tokens := do
  if !ts.bracketed && !ts.keyAllowed then none
  let ts ← ts.indent ts.mark.col ts.number .blockMapping
  let ts ← ts.dropCandidate
  some (((ts.allowKey (!ts.bracketed)).advance 1).push .key)

/-- Reads the colon in front of a value. It makes a key of the innermost candidate; without one it
belongs to a key behind a question mark. -/
def readValue (ts : Tokens) : Option Tokens := do
  let (candidate, ts) ← ts.openCandidate
  let ts ← match candidate with
    | some c => do
      let ts ← (ts.insertAt c.number .key).indent c.col c.number .blockMapping
      let ts := { ts with
        candidates := { c with possible := false } :: ts.candidates.drop 1 }.unwatch c.number
      some (ts.allowKey false)
    | none => do
      if !ts.bracketed && !ts.keyAllowed then none
      let ts ← ts.indent ts.mark.col ts.number .blockMapping
      some (ts.allowKey (!ts.bracketed))
  some ((ts.advance 1).push .value)

/-- Reads an anchor, or a use of one. -/
def readAnchor (t : List Char → Token) (ts : Tokens) : Option Tokens := do
  let ts ← ts.saveCandidate
  let (name, behind) ← anchorName ts.mark
  some (({ ts with mark := behind }.allowKey false).push (t name))

/-- Reads a tag. -/
def readTag (ts : Tokens) : Option Tokens := do
  let ts ← ts.saveCandidate
  let (t, behind) ← writtenTag ts.mark
  some (({ ts with mark := behind }.allowKey false).push (.tag t))

/-- Reads a block scalar, which cannot be a key. -/
def readBlockScalar (literal : Bool) (ts : Tokens) : Option Tokens := do
  let ts ← ts.dropCandidate
  let r ← blockScalar literal ts.inner ts.mark
  some (({ ts with mark := r.behind }.allowKey true).push (.scalar r.text false))

/-- Reads a scalar in single or double quotes. -/
def readQuoted (single : Bool) (ts : Tokens) : Option Tokens := do
  let ts ← ts.saveCandidate
  let m := ts.mark.advance 1
  let r ← if single then singleFrom false [] .none m.rest m.line m.col
    else doubleFrom .outside [] .none m.rest m.line m.col
  some (({ ts with mark := r.behind }.allowKey false).push (.scalar r.text false))

/-- Reads a plain scalar. A key can follow it on a new line. -/
def readPlain (ts : Tokens) : Option Tokens := do
  let ts ← ts.saveCandidate
  let m := ts.mark
  let r ← plainFrom ts.bracketed ts.inner [] .none m.rest m.line m.col
  some (({ ts with mark := r.behind }.allowKey r.broken).push (.scalar r.text true))

/-- Skips the comment behind a token on its line. -/
def skipLineComment (ts : Tokens) : Tokens :=
  { ts with mark := ts.mark.skipLineComment }

/-- Reads a token that starts with the characters `c` and `r`. A comment behind the dash of an
item belongs to the next token, and a scalar that goes on to the next line has none. -/
def readStarting (c : Char) (r : List Char) (ts : Tokens) : Option Tokens :=
  let lone := ts.bracketed || endsWord r
  if c = '[' then (ts.readOpening .flowSequence).map skipLineComment
  else if c = '{' then (ts.readOpening .flowMapping).map skipLineComment
  else if c = ']' then (ts.readClosing .flowSequenceEnd).map skipLineComment
  else if c = '}' then (ts.readClosing .flowMappingEnd).map skipLineComment
  else if c = ',' then ts.readComma.map skipLineComment
  else if c = '-' && endsWord r then ts.readItem
  else if c = '?' && lone then ts.readKey.map skipLineComment
  else if c = ':' && lone then ts.readValue.map skipLineComment
  else if c = '*' then (ts.readAnchor .reference).map skipLineComment
  else if c = '&' then (ts.readAnchor .anchor).map skipLineComment
  else if c = '!' then ts.readTag.map skipLineComment
  else if c = '|' && !ts.bracketed then ts.readBlockScalar true
  else if c = '>' && !ts.bracketed then ts.readBlockScalar false
  else if c = '\'' then (ts.readQuoted true).map skipLineComment
  else if c = '"' then (ts.readQuoted false).map skipLineComment
  else if startsPlain ts.bracketed (c :: r) then
    ts.readPlain.map fun ts => if ts.keyAllowed then ts else ts.skipLineComment
  else none

/-- Reads the next token, which can bring others along. -/
def readNext (ts : Tokens) : Option Tokens :=
  let (m, keyAllowed) :=
    skipFrom ts.bracketed ts.keyAllowed .outside ts.mark.rest ts.mark.line ts.mark.col
  let ts := { ts with mark := m, keyAllowed }.dedent (some m.col)
  match m.rest with
  | [] => ts.readFileEnd
  | c :: r =>
    if m.col = 0 && c = '%' then ts.readDirective
    else if m.col = 0 && startsDocument (c :: r) then ts.readDocumentMark .documentStart
    else if m.col = 0 && endsDocument (c :: r) then ts.readDocumentMark .documentEnd
    else ts.readStarting c r

/-! ## Handing out tokens -/

/-- Whether the next token starts no open candidate, and the candidates after that question: one
that is past is refuted. There is no answer if a key had to start there. -/
def settle (ts : Tokens) : Option (Bool × List Candidate) :=
  match (ts.watched.find? fun w => w.1 == ts.taken).map Prod.snd with
  | none => some (true, ts.candidates)
  | some depth =>
    -- Candidates are counted from the outermost one.
    let i := ts.candidates.length - 1 - depth
    match ts.candidates[i]? with
    | none => some (true, ts.candidates)
    | some c =>
      if !c.possible then some (true, ts.candidates)
      else if !ts.isPast c then some (false, ts.candidates)
      else if c.required then none
      else some (true, ts.candidates.set i { c with possible := false })

/-- Takes tokens as long as there are more than `ahead` of them and the next one starts no open
candidate. There is no stream behind them if the file is malformed there. -/
def handOut (ahead : Nat) (ts : Tokens) : List Token × Option Tokens :=
  if h : ts.taken + ahead < ts.found.size then
    match ts.settle with
    | none => ([], none)
    | some (false, candidates) => ([], some { ts with candidates })
    | some (true, candidates) =>
      let (tokens, behind) := { ts with candidates, taken := ts.taken + 1 }.handOut ahead
      (ts.found[ts.taken] :: tokens, behind)
  else ([], some ts)
termination_by ts.found.size - ts.taken

/-- The tokens of what is left of a file, and whether they go on to its end: they stop where the
file is malformed. -/
def readAll (ts : Tokens) : List Token × Bool :=
  match ts.handOut 2 with
  | (tokens, none) => (tokens, false)
  | (tokens, some ts') =>
    match ts'.readNext with
    | none => (tokens, false)
    | some behind =>
      -- A token takes characters away, unless it is the end of the file.
      if behind.mark.rest.length < ts.mark.rest.length then
        let (more, whole) := behind.readAll
        (tokens ++ more, whole)
      else
        let (more, final) := behind.handOut 0
        (tokens ++ more, final.isSome)
termination_by ts.mark.rest.length

end Tokens

end ExprTyping.Yaml
