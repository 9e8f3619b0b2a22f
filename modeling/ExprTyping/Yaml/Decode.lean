import ExprTyping.Yaml.Kind

/-!
# Reading values from nodes

The values of a session file are texts and mappings with texts as keys. A node that is something
else than wanted makes the file malformed, but reading goes on.

A mapping can have an entry under the *merge key*: the entries of the mapping, or the mappings,
that are its value are added, as far as their keys are not there yet. Such a mapping can have a
merge key itself. A number as a key does not keep one that is written alike from being added.

Named nodes make it possible to write a file whose values are much larger than itself, so they are
counted: a file is malformed if too much of what is read of it is read by name.

- `Decode.text` reads a text;
- `Decode.mapping` passes the entries of a mapping to a function, one after the other.
-/

namespace ExprTyping.Yaml

/-- Why a node cannot be read. -/
inductive DecodeFault where
  /-- It is malformed. -/
  | malformed
  /-- A mapping with a merge key has a collection as a key. -/
  | collectionKey
  deriving DecidableEq, Repr

/-- The state of reading values. -/
structure DecodeState where
  /-- Whether a node was something else than wanted. -/
  mismatch : Bool
  /-- The number of nodes read. -/
  visited : Nat
  /-- The number of those that were read by name. -/
  named : Nat
  /-- The number of names that lead to where reading is. -/
  depth : Nat

/-- Reading values. -/
abbrev Decode := StateT DecodeState (Except DecodeFault)

/-- How a key occurs in a mapping. -/
structure Occurrence where
  /-- Whether its entry is added by a merge key. -/
  merged : Bool
  /-- Whether the key has occurred before. -/
  again : Bool

namespace Decode

/-- Notes that a node is something else than wanted. -/
def mismatch : Decode Unit :=
  modify fun s => { s with mismatch := true }

/-- The file is malformed. -/
def malformed {α : Type} : Decode α :=
  throw .malformed

/-- How many of 360 million nodes may be read by name: 99 of 100 up to 400 thousand nodes, 10 of 100
from 4 million nodes on, and evenly less in between. -/
def namedShare (visited : Nat) : Nat :=
  356400000 - 89 * min (visited - 400000) 3600000

/-- Whether too much is read by name. It never is in a small file. -/
def isExcessive (s : DecodeState) : Bool :=
  100 < s.named && 1000 < s.visited && namedShare s.visited * s.visited < 360000000 * s.named

/-- Counts a node. -/
def visit : Decode Unit := do
  let s ← get
  let s := { s with
    visited := s.visited + 1
    named := if s.depth = 0 then s.named else s.named + 1 }
  set s
  if isExcessive s then malformed

/-- Reads a node by its name. -/
def byName {α : Type} (read : Decode α) : Decode α := do
  modify fun s => { s with depth := s.depth + 1 }
  let a ← read
  modify fun s => { s with depth := s.depth - 1 }
  return a

/-! ## Texts -/

/-- The value of a scalar. -/
def scalar (tag : Option Text) (cs : List Char) (plain : Bool) : Decode ScalarValue :=
  match ScalarValue.of? tag cs plain with
  | some v => return v
  | none => malformed

/-- Reads a text; there is none in a null, and in what is no scalar. -/
def text : Node → Decode (Option Text)
  | .scalar tag cs plain => do
    visit
    return (← scalar tag cs plain).text?
  | .reference _ (some n) => do
    visit
    byName (text n)
  | _ => do
    visit
    mismatch
    return none

/-- Reads a key next to a merge key: the text if it is one. -/
def keyText : Node → Decode (Option Text)
  | .scalar tag cs plain => do
    visit
    match ← scalar tag cs plain with
    | .text t => return some t
    | _ => return none
  | .reference _ (some n) => do
    visit
    byName (keyText n)
  | .reference _ none => malformed
  | _ => throw .collectionKey

/-! ## Mappings -/

/-- The merge key. -/
def isMergeKey : Node → Bool
  | .scalar tag cs plain =>
    cs == ['<', '<'] && (if tag.isNone then plain else tag == some (Text.ofString "!!merge"))
  | _ => false

section Mapping

variable {α : Type} (put : Occurrence → α → Text → Node → Decode α)

/-- Passes entries on whose keys are not among `known`, which are all keys passed on before. The
result has the keys, too. -/
def putMerged (known : List Text) (a : α) : List (Node × Node) → Decode (List Text × α)
  | [] => return (known, a)
  | (key, value) :: rest => do
    if isMergeKey key then putMerged known a rest
    else match ← text key with
      | none => putMerged known a rest
      | some t =>
        if known.contains t then putMerged known a rest
        else putMerged (t :: known) (← put ⟨true, false⟩ a t value) rest

/-- Passes all entries on; `known` are the keys passed on before. -/
def putAll (known : List Text) (a : α) : List (Node × Node) → Decode α
  | [] => return a
  | (key, value) :: rest => do
    if isMergeKey key then putAll known a rest
    else match ← text key with
      | none => putAll known a rest
      | some t => putAll (t :: known) (← put ⟨false, known.contains t⟩ a t value) rest

/-- The texts among the keys of some entries. -/
def keyTexts : List (Node × Node) → Decode (List Text)
  | [] => return []
  | (key, _) :: rest => do
    let t ← keyText key
    return t.toList ++ (← keyTexts rest)

mutual

/-- Adds the entries of a mapping, and what its own merge key adds. -/
def mergeMapping (known : List Text) (a : α) : Node → Decode (List Text × α)
  | .mapping entries => do
    visit
    if !Node.keysDiffer entries then
      mismatch
      return (known, a)
    let (known, a) ← putMerged put known a entries
    mergeEntries known a entries
  | .reference _ target => do
    visit
    byName (mergeTarget known a target)
  | _ => malformed

/-- Adds the entries of a named mapping. -/
def mergeTarget (known : List Text) (a : α) : Option Node → Decode (List Text × α)
  | some n => mergeMapping known a n
  | none => malformed

/-- Adds what the merge key among some entries adds. There is at most one. -/
def mergeEntries (known : List Text) (a : α) : List (Node × Node) → Decode (List Text × α)
  | [] => return (known, a)
  | (key, value) :: rest =>
    if isMergeKey key then mergeValue known a value else mergeEntries known a rest

/-- Adds the entries of a mapping, or of several ones. -/
def mergeValue (known : List Text) (a : α) : Node → Decode (List Text × α)
  | .sequence items => mergeItems known a items
  | n => mergeMapping known a n

/-- Adds the entries of several mappings. -/
def mergeItems (known : List Text) (a : α) : List Node → Decode (List Text × α)
  | [] => return (known, a)
  | n :: rest => do
    let (known, a) ← mergeMapping known a n
    mergeItems known a rest

end

/-- Reads a mapping: passes its entries to `put`, which says what they make of a value, and then
those that a merge key adds. Null is a mapping without entries. -/
def mapping (a : α) : Node → Decode α
  | .mapping entries => do
    visit
    if !Node.keysDiffer entries then
      mismatch
      return a
    let a ← putAll put [] a entries
    if entries.any fun entry => isMergeKey entry.1 then
      let known ← keyTexts entries
      return (← mergeEntries put known a entries).2
    return a
  | .scalar tag cs plain => do
    visit
    if let .null := ← scalar tag cs plain then return a
    mismatch
    return a
  | .sequence _ => do
    visit
    mismatch
    return a
  | .reference _ (some n) => do
    visit
    byName (mapping a n)
  | .reference _ none => malformed

end Mapping

/-- Reads a value from a document. -/
def run {α : Type} (read : Decode α) : Except DecodeFault α := do
  -- The document itself counts as a node.
  let (a, s) ← StateT.run read ⟨false, 1, 0, 0⟩
  if s.mismatch then .error .malformed else .ok a

end Decode

end ExprTyping.Yaml
