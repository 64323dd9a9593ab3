import MetricRelay.Yaml.Lexer

/-!
# Documents of a YAML text

The tokens of a text form a tree of scalars, sequences and mappings.  A node may have an anchor,
and an alias stands for a node with one; an alias is kept in the tree as the number of its anchor,
so that the tree stays finite even where a node is aliased inside itself.

Main definitions:

- `Node` and `Document`.
- `Document.parse`: the only document of a text.
- `Document.resolve`: the node that a node of the tree stands for.
-/

namespace MetricRelay.Yaml

/-- A node of a document. -/
inductive Node where
  | scalar (tag : Option (List Char)) (text : List Char) (style : Style)
  | sequence (items : List Node)
  | mapping (entries : List (Node × Node))
  | alias (number : Nat)

namespace Node

/-- The node where nothing is written. -/
def absent : Node := scalar none [] .plain

end Node

/-- The definition of an anchor.  Its node is missing while that is still being read. -/
structure Anchor where
  name : List Char
  number : Nat
  node : Option Node

/-- What tag handles stand for. -/
abbrev TagTable := List (List Char × List Char)

/-- The tags of the standard. -/
def standardTag (name : String) : List Char := "tag:yaml.org,2002:".toList ++ name.toList

/-- The handles that need no directive. -/
def defaultTags : TagTable :=
  [(['!'], ['!']), (['!', '!'], standardTag "")]

/-- The state of a reader: the tokens left, and what tag handles and aliases stand for. -/
structure Reader where
  tokens : List Token
  tags : TagTable
  anchors : List Anchor

namespace Reader

/-- Go on with other tokens. -/
def moveTo (p : Reader) (tokens : List Token) : Reader := { p with tokens := tokens }

/-! ## Properties of a node -/

/-- An anchor is numbered by how many different names there are before it. -/
def nextNumber (p : Reader) : Nat := (p.anchors.map (·.name)).eraseDups.length

/-- The number that an alias stands for: the one of the latest anchor of its name. -/
def number? (p : Reader) (name : List Char) : Option Nat :=
  (p.anchors.reverse.find? (·.name = name)).map (·.number)

/-- Define an anchor whose node follows. -/
def define (p : Reader) : Option (List Char) → Reader
  | some name => { p with anchors := p.anchors ++ [⟨name, p.nextNumber, none⟩] }
  | none => p

/-- Give a node to the anchor at a position, if a node has one there. -/
def settle (p : Reader) (name : Option (List Char)) (position : Nat) (node : Node) : Reader :=
  if name.isSome then
    { p with anchors := p.anchors.modify position fun a => { a with node := some node } }
  else p

/-- The tag that a handle and a suffix stand for; without a handle the suffix is the tag.  Each part
ends before a zero byte in it. -/
def fullTag (p : Reader) (handle suffix : List Char) : Read (List Char) :=
  if handle.isEmpty then .ok (beforeZero suffix)
  else
    match p.tags.find? (·.1 = handle) with
    | some (_, start) => .ok (beforeZero start ++ beforeZero suffix)
    | none => .error .undefinedTag

/-- The anchor and the tag before a node, in either order. -/
def properties (p : Reader) : Read (Option (List Char) × Option (List Char) × Reader) :=
  match p.tokens with
  | .anchor name :: .tag handle suffix :: r | .tag handle suffix :: .anchor name :: r => do
    return (some name, some (← p.fullTag handle suffix), p.moveTo r)
  | .anchor name :: r => return (some name, none, p.moveTo r)
  | .tag handle suffix :: r => do
    return (none, some (← p.fullTag handle suffix), p.moveTo r)
  | _ => return (none, none, p)

/-! ## Nodes -/

/-- Where a node stands: between brackets, in a block, or in a block mapping, where a sequence needs
no indentation of its own. -/
inductive Place where
  | flow
  | block
  | entry
  deriving DecidableEq

/-- Whether a block sequence has no item before a token. -/
def endsItem : Token → Bool
  | .blockEntry | .blockEnd => true
  | _ => false

/-- Whether a sequence inside a block mapping has no item before a token. -/
def endsLooseItem : Token → Bool
  | .blockEntry | .key | .value | .blockEnd => true
  | _ => false

/-- Whether a block mapping has no key and no value before a token. -/
def endsEntry : Token → Bool
  | .key | .value | .blockEnd => true
  | _ => false

/-- Whether a mapping between brackets has no key before a token. -/
def endsFlowKey : Token → Bool
  | .value | .flowEntry | .flowSequenceEnd | .flowMappingEnd => true
  | _ => false

/-- Whether a mapping between brackets has no value before a token. -/
def endsFlowValue : Token → Bool
  | .flowEntry | .flowSequenceEnd | .flowMappingEnd => true
  | _ => false

/-- Whether the next token is one at which nothing is written. -/
def isAt (p : Reader) (ends : Token → Bool) : Bool := p.tokens.head?.any ends

mutual

/-- A node with its properties, or an alias. -/
def node : Nat → Place → Reader → Read (Node × Reader)
  | 0, _, _ => .error .tooLong
  | n + 1, place, p =>
    match p.tokens with
    | .alias name :: r =>
      match p.number? name with
      | some number => .ok (.alias number, p.moveTo r)
      | none => .error .undefinedAnchor
    | _ => do
      let (anchor, tag, p) ← p.properties
      let position := p.anchors.length
      let (content, p) ← content n place (anchor.isSome || tag.isSome) tag (p.define anchor)
      return (content, p.settle anchor position content)

/-- What stands after the properties of a node; only a node that has some may be left out. -/
def content : Nat → Place → Bool → Option (List Char) → Reader → Read (Node × Reader)
  | 0, _, _, _, _ => .error .tooLong
  | n + 1, place, optional, tag, p =>
    match p.tokens with
    | .scalar text style :: r => .ok (.scalar tag text style, p.moveTo r)
    | .flowSequenceStart :: r => do
      let (items, p) ← flowItems n true (p.moveTo r)
      return (.sequence items, p)
    | .flowMappingStart :: r => do
      let (entries, p) ← flowEntries n true (p.moveTo r)
      return (.mapping entries, p)
    | .blockSequenceStart :: r =>
      if place = .flow then .error .noContent
      else do
        let (items, p) ← blockItems n (p.moveTo r)
        return (.sequence items, p)
    | .blockMappingStart :: r =>
      if place = .flow then .error .noContent
      else do
        let (entries, p) ← blockEntries n (p.moveTo r)
        return (.mapping entries, p)
    | .blockEntry :: _ =>
      if place = .entry then do
        let (items, p) ← looseItems n p
        return (.sequence items, p)
      else if optional then .ok (.scalar tag [] .plain, p)
      else .error .noContent
    | _ => if optional then .ok (.scalar tag [] .plain, p) else .error .noContent

/-- A node, unless a token shows that it is left out. -/
def optionalNode : Nat → Place → (Token → Bool) → Reader → Read (Node × Reader)
  | 0, _, _, _ => .error .tooLong
  | n + 1, place, ends, p => if p.isAt ends then .ok (.absent, p) else node n place p

/-- A value after its colon, if there is one. -/
def optionalValue : Nat → Place → (Token → Bool) → Reader → Read (Node × Reader)
  | 0, _, _, _ => .error .tooLong
  | n + 1, place, ends, p =>
    match p.tokens with
    | .value :: r => optionalNode n place ends (p.moveTo r)
    | _ => .ok (.absent, p)

/-- The items of a block sequence, and its end. -/
def blockItems : Nat → Reader → Read (List Node × Reader)
  | 0, _ => .error .tooLong
  | n + 1, p =>
    match p.tokens with
    | .blockEntry :: r => do
      let (item, p) ← optionalNode n .block endsItem (p.moveTo r)
      let (items, p) ← blockItems n p
      return (item :: items, p)
    | .blockEnd :: r => .ok ([], p.moveTo r)
    | _ => .error .noEntry

/-- The items of a sequence that is not indented. -/
def looseItems : Nat → Reader → Read (List Node × Reader)
  | 0, _ => .error .tooLong
  | n + 1, p =>
    match p.tokens with
    | .blockEntry :: r => do
      let (item, p) ← optionalNode n .block endsLooseItem (p.moveTo r)
      let (items, p) ← looseItems n p
      return (item :: items, p)
    | _ => .ok ([], p)

/-- The entries of a block mapping, and its end. -/
def blockEntries : Nat → Reader → Read (List (Node × Node) × Reader)
  | 0, _ => .error .tooLong
  | n + 1, p =>
    match p.tokens with
    | .key :: r => do
      let (key, p) ← optionalNode n .entry endsEntry (p.moveTo r)
      let (value, p) ← optionalValue n .entry endsEntry p
      let (entries, p) ← blockEntries n p
      return ((key, value) :: entries, p)
    | .blockEnd :: r => .ok ([], p.moveTo r)
    | _ => .error .noKey

/-- The items of a sequence between brackets, and its end; a comma stands before each item but the
first.  A key makes an item a mapping of one entry. -/
def flowItems : Nat → Bool → Reader → Read (List Node × Reader)
  | 0, _, _ => .error .tooLong
  | n + 1, first, p =>
    match p.tokens with
    | .flowSequenceEnd :: r => .ok ([], p.moveTo r)
    | .flowEntry :: r => if first then .error .noContent else flowItem n (p.moveTo r)
    | _ => if first then flowItem n p else .error .noEntry

/-- An item of a sequence between brackets, and the items after it. -/
def flowItem : Nat → Reader → Read (List Node × Reader)
  | 0, _ => .error .tooLong
  | n + 1, p =>
    match p.tokens with
    | .flowSequenceEnd :: r => .ok ([], p.moveTo r)
    | .key :: r => do
      let (key, p) ← optionalNode n .flow endsFlowKey (p.moveTo r)
      let (value, p) ← optionalValue n .flow endsFlowValue p
      let (items, p) ← flowItems n false p
      return (.mapping [(key, value)] :: items, p)
    | _ => do
      let (item, p) ← node n .flow p
      let (items, p) ← flowItems n false p
      return (item :: items, p)

/-- The entries of a mapping between brackets, and its end; a comma stands before each entry but
the first. -/
def flowEntries : Nat → Bool → Reader → Read (List (Node × Node) × Reader)
  | 0, _, _ => .error .tooLong
  | n + 1, first, p =>
    match p.tokens with
    | .flowMappingEnd :: r => .ok ([], p.moveTo r)
    | .flowEntry :: r => if first then .error .noContent else flowEntry n (p.moveTo r)
    | _ => if first then flowEntry n p else .error .noKey

/-- An entry of a mapping between brackets, and the entries after it.  What is not marked as a key
is one without a value. -/
def flowEntry : Nat → Reader → Read (List (Node × Node) × Reader)
  | 0, _ => .error .tooLong
  | n + 1, p =>
    match p.tokens with
    | .flowMappingEnd :: r => .ok ([], p.moveTo r)
    | .key :: r => do
      let (key, p) ← optionalNode n .flow endsFlowKey (p.moveTo r)
      let (value, p) ← optionalValue n .flow endsFlowValue p
      let (entries, p) ← flowEntries n false p
      return ((key, value) :: entries, p)
    | _ => do
      let (key, p) ← node n .flow p
      let (entries, p) ← flowEntries n false p
      return ((key, .absent) :: entries, p)

end

end Reader

/-! ## Documents -/

/-- A document: its outermost node, and the anchors in it. -/
structure Document where
  root : Node
  anchors : List Anchor

namespace Document

/-- The directives before a document: at most one version, and at most one meaning for each
handle. -/
def readDirectives : Bool → TagTable → List Token → Read (TagTable × List Token)
  | versioned, tags, .version major minor :: r =>
    if versioned || major ≠ 1 || (minor ≠ 1 && minor ≠ 2) then .error .badVersion
    else readDirectives true tags r
  | versioned, tags, .tagDirective handle tag :: r =>
    if tags.any (·.1 = handle) then .error .badDirective
    else readDirectives versioned (tags ++ [(handle, tag)]) r
  | _, tags, r => .ok (tags, r)

/-- Whether the content of a document is left out before a token. -/
def endsDocument : Token → Bool
  | .version .. | .tagDirective .. | .documentStart | .documentEnd => true
  | _ => false

/-- The outermost node of a document.  After a mark the node may be left out. -/
def readRoot (marked : Bool) (tags : TagTable) (tokens : List Token) :
    Read (Document × List Token) :=
  let p : Reader := ⟨tokens, tags ++ defaultTags, []⟩
  if marked && (tokens.isEmpty || p.isAt endsDocument) then .ok (⟨.absent, []⟩, tokens)
  else do
    let (root, p) ← p.node (4 * tokens.length + 4) .block
    return (⟨root, p.anchors⟩, p.tokens)

/-- The document that some tokens are. -/
def ofTokens (tokens : List Token) : Read Document := do
  if tokens.isEmpty then throw .noDocument
  let (tags, r) ← readDirectives false [] tokens
  let (document, r) ←
    match r with
    | .documentStart :: r => readRoot true tags r
    | r => if r.length < tokens.length then throw .noDocument else readRoot false tags r
  if (r.dropWhile (· = .documentEnd)).isEmpty then return document else throw .manyDocuments

/-- The only document of a text. -/
def parse (text : String) : Read Document := do
  ofTokens (← tokens text.toList)

/-- The node that an alias of some number stands for: the latest of that number. -/
def target? (d : Document) (number : Nat) : Option Node :=
  (d.anchors.reverse.find? (·.number = number)).bind (·.node)

/-- The node that a node stands for. -/
def resolve (d : Document) : Node → Node
  | .alias number => (d.target? number).getD .absent
  | node => node

end Document

end MetricRelay.Yaml
