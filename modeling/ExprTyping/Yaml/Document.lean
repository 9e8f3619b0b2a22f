import ExprTyping.Yaml.Node
import ExprTyping.Yaml.Token

/-!
# Documents of session files

Nodes are read from the tokens of a file by recursive descent. A file can hold several documents,
of which only the first one counts.

- `Document` is reading in a state: the tokens that are left, the named nodes, and the
  abbreviations of tags. It is indexed by a bound on the number of tokens, which
  `Document.behind` lowers, so that readers can call one another behind a token.
- `Node.ofText?` reads the first document of a file; `none` means that the file is malformed.
-/

namespace ExprTyping.Yaml

/-! ## Tags -/

/-- The start of the address of every tag that the format defines. -/
def standardAddress : Text := "tag:yaml.org,2002:"

/-- A tag in its short form: two exclamation marks stand for the usual start of an address. -/
def shortTag (t : Text) : Text :=
  if t.startsWith standardAddress then "!!" ++ t.drop standardAddress.length else t

/-- The abbreviations of tags that need no directive. -/
def standardHandles : List (List UInt8 × List UInt8) :=
  [(plainBytes ['!'], plainBytes ['!']), (plainBytes ['!', '!'], standardAddress.toBytes)]

/-! ## Places -/

/-- What can stand at a place where a node is due. -/
structure NodePlace where
  /-- Whether a collection of indented lines can. -/
  block : Bool
  /-- Whether a sequence can whose dashes are at the column of the mapping around it. -/
  shared : Bool
  /-- The tokens that show that nothing stands there. -/
  absent : List Token

namespace NodePlace

/-- The whole document. -/
def whole : NodePlace := ⟨true, false, []⟩

/-- An item of an indented sequence. -/
def blockItem : NodePlace := ⟨true, false, [.item, .blockEnd]⟩

/-- An item of a sequence at the column of the mapping around it. -/
def sharedItem : NodePlace := ⟨true, false, [.item, .key, .value, .blockEnd]⟩

/-- A key or a value of an indented mapping. -/
def blockPart : NodePlace := ⟨true, true, [.key, .value, .blockEnd]⟩

/-- Something between brackets that has to be there. -/
def flowItem : NodePlace := ⟨false, false, []⟩

/-- A key between braces, behind its mark. -/
def flowKey : NodePlace := ⟨false, false, [.value, .comma, .flowMappingEnd]⟩

/-- A value between brackets, behind its colon; `close` is the bracket that ends the collection. -/
def flowValue (close : Token) : NodePlace := ⟨false, false, [.comma, close]⟩

end NodePlace

/-! ## Reading -/

/-- The state of reading a document. -/
structure DocumentState where
  /-- The tokens that are left. -/
  tokens : List Token
  /-- Whether they go on to the end of the file. -/
  whole : Bool
  /-- The named nodes, last one first; an unfinished one has no value. -/
  anchors : List (List Char × Option Node)
  /-- The abbreviations of tags. -/
  handles : List (List UInt8 × List UInt8)

/-- Reading a document of which at most `n` tokens are left; `none` if the file is malformed. -/
abbrev Document (n : Nat) := StateT { s : DocumentState // s.tokens.length ≤ n } Option

namespace Document

variable {n : Nat}

/-- The next token, which stays. -/
def peek : Document n Token := do
  let s ← get
  match s.val.tokens with
  | t :: _ => return t
  | [] => if s.val.whole then return .fileEnd else failure

/-- Takes the next token. -/
def skip : Document n Unit :=
  modify fun ⟨s, h⟩ => ⟨{ s with tokens := s.tokens.tail }, by
    rw [List.length_tail]
    omega⟩

/-- Takes the next token and gives the one behind it, which stays. -/
def advance : Document n Token := do
  skip
  peek

/-- Takes the next token, and reads on with what is left then. -/
def behind {α : Type} (read : (m : Nat) → m < n → Document m α) : Document n α := fun ⟨s, h⟩ =>
  match htokens : s.tokens with
  | [] => none
  | _ :: rest =>
    have hlt : rest.length < n := by
      rw [htokens] at h
      exact h
    (read rest.length hlt ⟨{ s with tokens := rest }, Nat.le_refl _⟩).map fun (a, ⟨s, h⟩) =>
      (a, ⟨s, Nat.le_trans h (Nat.le_of_lt hlt)⟩)

/-- Names a node whose value is to come. The result is the number of the name. -/
def announce (name : List Char) : Document n Nat := do
  let ⟨s, h⟩ ← get
  set (⟨{ s with anchors := (name, none) :: s.anchors }, h⟩ :
    { s : DocumentState // s.tokens.length ≤ n })
  return s.anchors.length

/-- Gives the value of the named node with a number. -/
def define (number : Nat) (node : Node) : Document n Unit :=
  modify fun ⟨s, h⟩ =>
    let i := s.anchors.length - 1 - number
    ⟨{ s with anchors := s.anchors.modify i fun a => (a.1, some node) }, h⟩

/-- The node that was last given a name. -/
def lookUp (name : List Char) : Document n Node := do
  match (← get).val.anchors.find? fun a => a.1 == name with
  | some a => return .reference name a.2
  | none => failure

/-- The tag that a written tag stands for. -/
def resolveTag (t : WrittenTag) : Document n Text := do
  if t.handle.isEmpty then return .ofBytes t.suffix
  match (← get).val.handles.find? fun h => h.1 == t.handle with
  | some h =>
    let bytes := h.2 ++ t.suffix
    if bytes.isEmpty then failure
    return .ofBytes bytes
  | none => failure

/-- What stands in front of a node. -/
structure Properties where
  /-- The number of its name. -/
  number : Option Nat
  /-- Its tag. -/
  tag : Option Text

namespace Properties

/-- Whether there is anything. -/
def isSome (p : Properties) : Bool :=
  p.number.isSome || p.tag.isSome

/-- The tag in its short form. A lone exclamation mark says nothing. -/
def meaning (p : Properties) : Option Text :=
  match p.tag with
  | some t => if t = Text.ofString "!" then none else some (shortTag t)
  | none => none

end Properties

/-- Reads a tag and an anchor in front of a node, in any order. -/
def properties : Document n Properties := do
  match ← peek with
  | .anchor name =>
    let tag ← match ← advance with
      | .tag t => do
        skip
        some <$> resolveTag t
      | _ => pure none
    return ⟨some (← announce name), tag⟩
  | .tag t =>
    match ← advance with
    | .anchor name =>
      skip
      let tag ← resolveTag t
      return ⟨some (← announce name), some tag⟩
    | _ => return ⟨none, some (← resolveTag t)⟩
  | _ => return ⟨none, none⟩

/-- Something has to be there, if only a name or a tag. -/
def empty (p : Properties) : Document n Node :=
  if p.isSome then return .scalar p.meaning [] true else failure

mutual

/-- Reads what stands at a place. -/
def node (n : Nat) (place : NodePlace) : Document n Node := do
  let t ← peek
  if place.absent.contains t then return .null
  if let .reference name := t then
    skip
    return ← lookUp name
  let p ← properties
  let x ← content n place p (← peek)
  if let some number := p.number then define number x
  return x
termination_by (n, 3)

/-- Reads what a token starts, behind what stands in front of a node. -/
def content (n : Nat) (place : NodePlace) (p : Properties) (t : Token) : Document n Node :=
  match t with
  | .item => if place.shared then .sequence <$> sharedItems n else empty p
  | .scalar text plain => do
    skip
    return .scalar p.meaning text plain
  | .flowSequence => .sequence <$> behind fun m _ => flowItems m
  | .flowMapping => .mapping <$> behind fun m _ => flowEntries m
  | .blockSequence =>
    if place.block then .sequence <$> behind fun m _ => blockItems m else empty p
  | .blockMapping =>
    if place.block then .mapping <$> behind fun m _ => blockEntries m else empty p
  | _ => empty p
termination_by (n, 2)

/-- Reads the items of an indented sequence up to its end. -/
def blockItems (n : Nat) : Document n (List Node) := do
  match ← peek with
  | .item => behind fun m _ => do
    let x ← node m .blockItem
    return x :: (← blockItems m)
  | .blockEnd =>
    skip
    return []
  | _ => failure
termination_by (n, 0)

/-- Reads the items of a sequence at the column of the mapping around it. -/
def sharedItems (n : Nat) : Document n (List Node) := do
  match ← peek with
  | .item => behind fun m _ => do
    let x ← node m .sharedItem
    return x :: (← sharedItems m)
  | _ => return []
termination_by (n, 0)

/-- Reads the entries of an indented mapping up to its end. -/
def blockEntries (n : Nat) : Document n (List (Node × Node)) := do
  match ← peek with
  | .key => behind fun m _ => do
    let k ← node m .blockPart
    let v ← value m .blockPart
    return (k, v) :: (← blockEntries m)
  | .blockEnd =>
    skip
    return []
  | _ => failure
termination_by (n, 0)

/-- Reads a value, if there is a colon. -/
def value (n : Nat) (place : NodePlace) : Document n Node := do
  match ← peek with
  | .value => behind fun m _ => node m place
  | _ => return .null
termination_by (n, 0)

/-- Reads the items of a sequence between brackets up to its end, behind the opening bracket or a
comma. -/
def flowItems (n : Nat) : Document n (List Node) := do
  match ← peek with
  | .flowSequenceEnd =>
    skip
    return []
  | .key => behind fun m _ => do
    let entry ← flowPair m
    return .mapping [entry] :: (← moreItems m)
  | _ =>
    let x ← node n .flowItem
    return x :: (← moreItems n)
termination_by (n, 4)

/-- Reads the items of a sequence between brackets up to its end, behind an item. -/
def moreItems (n : Nat) : Document n (List Node) := do
  match ← peek with
  | .flowSequenceEnd =>
    skip
    return []
  | .comma => behind fun m _ => flowItems m
  | _ => failure
termination_by (n, 0)

/-- Reads an entry that is an item of a sequence, behind the mark of its key. A token that shows
that there is no key is taken. -/
def flowPair (n : Nat) : Document n (Node × Node) := do
  let t ← peek
  if [Token.value, .comma, .flowSequenceEnd].contains t then
    skip
    return (.null, ← value n (.flowValue .flowSequenceEnd))
  let k ← node n .flowItem
  return (k, ← value n (.flowValue .flowSequenceEnd))
termination_by (n, 4)

/-- Reads the entries of a mapping between braces up to its end, behind the opening brace or a
comma. -/
def flowEntries (n : Nat) : Document n (List (Node × Node)) := do
  match ← peek with
  | .flowMappingEnd =>
    skip
    return []
  | .key => behind fun m _ => do
    let k ← node m .flowKey
    let v ← value m (.flowValue .flowMappingEnd)
    return (k, v) :: (← moreEntries m)
  | _ =>
    let k ← node n .flowItem
    return (k, .null) :: (← moreEntries n)
termination_by (n, 4)

/-- Reads the entries of a mapping between braces up to its end, behind an entry. -/
def moreEntries (n : Nat) : Document n (List (Node × Node)) := do
  match ← peek with
  | .flowMappingEnd =>
    skip
    return []
  | .comma => behind fun m _ => flowEntries m
  | _ => failure
termination_by (n, 0)

end

/-! ## Directives -/

/-- Reads the directives in front of a document. `versioned` says that the version has been given,
which can happen once and can be only one; a handle can be given one meaning. -/
def directives (n : Nat) (versioned : Bool) (handles : List (List UInt8 × List UInt8)) :
    Document n (List (List UInt8 × List UInt8)) := do
  match ← peek with
  | .directive (.version major minor) =>
    if versioned || major != 1 || minor != 1 then failure
    behind fun m _ => directives m true handles
  | .directive (.abbreviation handle address) =>
    if handles.any fun h => h.1 == handle then failure
    behind fun m _ => directives m versioned (handles ++ [(handle, address)])
  | _ => return handles
termination_by n

/-- Reads the first document up to what follows it. -/
def first : Document n Node := do
  match ← peek with
  | .fileEnd => return .null
  | .directive _ | .documentStart =>
    let handles ← directives n false []
    modify fun ⟨s, h⟩ => ⟨{ s with handles := handles ++ standardHandles }, h⟩
    match ← peek with
    | .documentStart =>
      match ← advance with
      | .directive _ | .documentStart | .documentEnd | .fileEnd => return .null
      | _ => whole
    | _ => failure
  | _ => whole
where
  /-- Reads the node, and looks at what stands behind it. -/
  whole : Document n Node := do
    let x ← node n .whole
    let _ ← peek
    return x

end Document

/-- Reads the first document of a file. -/
def Node.ofText? (content : Text) : Option Node := do
  let cs ← fileChars? (withoutByteOrderMark content)
  let (tokens, whole) := (Tokens.ofChars cs).readAll
  let (x, _) ← Document.first.run ⟨⟨tokens, whole, [], standardHandles⟩, Nat.le_refl _⟩
  return x

end ExprTyping.Yaml
