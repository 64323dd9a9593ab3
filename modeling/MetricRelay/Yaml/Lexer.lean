import MetricRelay.Yaml.Scalar

/-!
# From a YAML text to its tokens

The structure of a block text is in its indentation, so the lexer keeps the indentation of every
open block.  A key is known to be one only when its colon comes, so the lexer also remembers, for
the text outside brackets and for every open bracket, where a key may have started, and puts the
key's tokens in there.

Main definitions:

- `Lexer`: the state between two tokens.
- `Lexer.toToken`: the state after the next token.
- `tokens`: the tokens of a text.
-/

namespace MetricRelay.Yaml

/-- A place where a key may have started. -/
structure PendingKey where
  /-- How many tokens were there before. -/
  before : Nat
  position : Position
  /-- Only a key can stand at this place. -/
  required : Bool

/-- The state between two tokens. -/
structure Lexer where
  cursor : Cursor
  /-- The tokens so far, the last one first. -/
  found : List Token
  /-- The column of the innermost open block, or minus one outside all blocks. -/
  indent : Int
  /-- The columns of the blocks around it. -/
  outer : List Int
  /-- Whether a key may start at this place. -/
  keyAllowed : Bool
  /-- For the innermost bracket, the ones around it and the text outside brackets: where a key may
  have started. -/
  pending : List (Option PendingKey)

namespace Lexer

/-- The start of a text. -/
def ofChars (s : List Char) : Lexer :=
  { cursor := .ofChars s, found := [], indent := -1, outer := [], keyAllowed := true,
    pending := [none] }

/-- Whether a bracket is open. -/
def inFlow (l : Lexer) : Bool := 1 < l.pending.length

/-- Add a token. -/
def emit (l : Lexer) (t : Token) : Lexer := { l with found := t :: l.found }

/-- Put a token in after the first `before` tokens. -/
def emitAt (l : Lexer) (before : Nat) (t : Token) : Lexer :=
  let after := l.found.length - before
  { l with found := l.found.take after ++ t :: l.found.drop after }

/-- Move on. -/
def moveTo (l : Lexer) (c : Cursor) : Lexer := { l with cursor := c }

/-- Move on by some characters of the same line. -/
def skip (l : Lexer) (n : Nat) : Lexer := l.moveTo (l.cursor.skip n)

/-- Say whether a key may start at the next place. -/
def allowKey (l : Lexer) (b : Bool) : Lexer := { l with keyAllowed := b }

/-- Replace what is known about a key at the innermost level. -/
def setPending (l : Lexer) (key : Option PendingKey) : Lexer :=
  { l with pending := key :: l.pending.drop 1 }

/-! ## Blocks -/

/-- Open a block at a column, unless the innermost one is there already.  Its token goes to the
end, or after the first `before` tokens. -/
def openBlock (l : Lexer) (column : Nat) (before : Option Nat) (t : Token) : Lexer :=
  if l.inFlow || (column : Int) ≤ l.indent then l
  else
    let l := { l with indent := column, outer := l.indent :: l.outer }
    match before with
    | some n => l.emitAt n t
    | none => l.emit t

/-- Close the innermost of some blocks while they are to the right of a column. -/
def closeBlocksIn (column indent : Int) :
    List Int → List Token → Int × List Int × List Token
  | [], found => (indent, [], found)
  | i :: outer, found =>
    if column < indent then closeBlocksIn column i outer (.blockEnd :: found)
    else (indent, i :: outer, found)

/-- Close the blocks to the right of a column. -/
def closeBlocks (l : Lexer) (column : Int) : Lexer :=
  if l.inFlow then l
  else
    let (indent, outer, found) := closeBlocksIn column l.indent l.outer l.found
    { l with indent := indent, outer := outer, found := found }

/-! ## Keys -/

/-- Forget that a key may have started; where only a key can stand this is a fault. -/
def dropKey (l : Lexer) : Read Lexer :=
  match l.pending with
  | some key :: _ => if key.required then .error .missingColon else .ok (l.setPending none)
  | _ => .ok l

/-- Remember that a key may start here. -/
def saveKey (l : Lexer) : Read Lexer :=
  if l.keyAllowed then do
    let required := !l.inFlow && l.indent = l.cursor.column
    let key : PendingKey := ⟨l.found.length, l.cursor.position, required⟩
    let l ← l.dropKey
    return l.setPending (some key)
  else .ok l

/-- A key ends on the line on which it starts and is no longer than 1024 characters. -/
def isStale (key : PendingKey) (p : Position) : Bool :=
  key.position.line < p.line || key.position.index + 1024 < p.index

/-- Forget the keys that would have had to end by now. -/
def dropStaleKeys (p : Position) : List (Option PendingKey) → Read (List (Option PendingKey))
  | [] => .ok []
  | some key :: r => do
    let r ← dropStaleKeys p r
    if isStale key p then
      if key.required then throw .missingColon else return none :: r
    else return some key :: r
  | none :: r => (dropStaleKeys p r).map (none :: ·)

/-! ## Between tokens -/

/-- Skip spaces, comments and line ends; outside brackets a key may start on a new line.  A tab
only counts as a space where no key may start, and a mark of the byte order at the start of a
line. -/
def skipGap : Nat → Lexer → Lexer
  | 0, l => l
  | n + 1, l =>
    let l :=
      if l.cursor.column = 0 && startsWith ['\ufeff'] l.cursor.rest then l.skip 1 else l
    let tabs := l.inFlow || !l.keyAllowed
    let l := l.moveTo (l.cursor.skipWhile fun c => c = ' ' || (tabs && c = '\t'))
    let l :=
      if startsWith ['#'] l.cursor.rest then
        l.moveTo (l.cursor.skipWhile fun c => !isBreak c)
      else l
    match l.cursor.readBreak? with
    | some (_, c) =>
      let l := l.moveTo c
      skipGap n (if l.inFlow then l else l.allowKey true)
    | none => l

/-! ## Directives -/

/-- A number of one to nine digits, and the place after it. -/
def readVersionNumber (c : Cursor) : Read (Nat × Cursor) :=
  let digits := c.taken isDigit
  if digits.isEmpty || 9 < digits.length then .error .badDirective
  else .ok (digitsNat digits, c.skip digits.length)

/-- The characters of a tag outside angle brackets. -/
def isTagChar (c : Char) : Bool :=
  isWord c || [';', '/', '?', ':', '@', '&', '=', '+', '$', '.', '!', '~', '*', '\x27', '(', ')',
    '%'].contains c

/-- The bytes of an escaped character of a tag, each as the character with its number: the first
byte says how many there are. -/
def readTagEscape? (s : List Char) : Option (List Char × List Char) := do
  let (first, r) ← octet? s
  let width := if first < 0x80 then 1 else if first / 32 = 6 then 2
    else if first / 16 = 14 then 3 else if first / 8 = 30 then 4 else 0
  if width = 0 then none
  else more (width - 1) [Char.ofNat first] r
where
  octet? : List Char → Option (Nat × List Char)
    | '%' :: a :: b :: r => do
      let high ← Hex.digitValue? a
      let low ← Hex.digitValue? b
      return (high * 16 + low, r)
    | _ => none
  more : Nat → List Char → List Char → Option (List Char × List Char)
    | 0, text, s => some (text, s)
    | n + 1, text, s => do
      let (b, r) ← octet? s
      if b / 64 = 2 then more n (text ++ [Char.ofNat b]) r else none

/-- The characters of a tag; in angle brackets and in directives some more may stand. -/
def readTagText (wide : Bool) : Nat → List Char → Cursor → Read (List Char × Cursor)
  | 0, text, c => .ok (text, c)
  | n + 1, text, c =>
    match c.rest with
    | [] => .ok (text, c)
    | x :: _ =>
      if x = '%' then
        match readTagEscape? c.rest with
        | some (t, r) => readTagText wide n (text ++ t) (c.skip (c.rest.length - r.length))
        | none => .error .badTag
      else if isTagChar x || (wide && [',', '[', ']'].contains x) then
        readTagText wide n (text ++ [x]) (c.skip 1)
      else .ok (text, c)

/-- The handle of a tag: an exclamation mark, letters, and another mark; in a directive, anything
but a single mark has to have both. -/
def readTagHandle (directive : Bool) (c : Cursor) : Read (List Char × Cursor) :=
  match c.rest with
  | '!' :: _ =>
    let c := c.skip 1
    let name := c.taken isWord
    let c := c.skip name.length
    match c.rest with
    | '!' :: _ => .ok ('!' :: name ++ ['!'], c.skip 1)
    | _ => if directive && !name.isEmpty then .error .badTag else .ok ('!' :: name, c)
  | _ => .error .badTag

/-- The end of a directive: spaces, a comment and the end of the line. -/
def endDirective (l : Lexer) : Read Lexer := do
  let c := l.cursor.skipWhile isSpace
  let c := if startsWith ['#'] c.rest then c.skipWhile (fun x => !isBreak x) else c
  if !startsBreak c.rest then throw .badDirective
  match c.readBreak? with
  | some (_, c) => return l.moveTo c
  | none => return l.moveTo c

/-- The version after the name of its directive. -/
def versionDirective (l : Lexer) : Read Lexer := do
  let c := l.cursor.skipWhile isSpace
  let (major, c) ← readVersionNumber c
  if !startsWith ['.'] c.rest then throw .badDirective
  let (minor, c) ← readVersionNumber (c.skip 1)
  ((l.moveTo c).emit (.version major minor)).endDirective

/-- The handle and the tag after the name of their directive. -/
def tagDirective (l : Lexer) : Read Lexer := do
  let c := l.cursor.skipWhile isSpace
  let (handle, c) ← readTagHandle true c
  if !startsWith [' ', '\t'] c.rest then throw .badDirective
  let c := c.skipWhile isSpace
  let (tag, c) ← readTagText true c.rest.length [] c
  if tag.isEmpty || !startsGap c.rest then throw .badDirective
  ((l.moveTo c).emit (.tagDirective handle tag)).endDirective

/-- A directive. -/
def directive (l : Lexer) : Read Lexer := do
  let l ← (l.closeBlocks (-1)).dropKey
  let l := (l.allowKey false).skip 1
  let name := l.cursor.taken isWord
  let l := l.skip name.length
  if !startsGap l.cursor.rest then throw .badDirective
  if name = "YAML".toList then l.versionDirective
  else if name = "TAG".toList then l.tagDirective
  else throw .badDirective

/-! ## Tokens of one kind -/

/-- A mark that divides documents. -/
def documentMark (l : Lexer) (t : Token) : Read Lexer := do
  let l ← (l.closeBlocks (-1)).dropKey
  return ((l.allowKey false).emit t).skip 3

/-- An opening bracket. -/
def openFlow (l : Lexer) (t : Token) : Read Lexer := do
  let l ← l.saveKey
  return (({ l with pending := none :: l.pending }.allowKey true).emit t).skip 1

/-- A closing bracket. -/
def closeFlow (l : Lexer) (t : Token) : Read Lexer := do
  let l ← l.dropKey
  let l := if l.inFlow then { l with pending := l.pending.drop 1 } else l
  return ((l.allowKey false).emit t).skip 1

/-- A comma between brackets. -/
def flowEntry (l : Lexer) : Read Lexer := do
  let l ← l.dropKey
  return ((l.allowKey true).emit .flowEntry).skip 1

/-- A hyphen before an entry. -/
def blockEntry (l : Lexer) : Read Lexer := do
  if !l.inFlow && !l.keyAllowed then throw .entryNotAllowed
  let l := l.openBlock l.cursor.column none .blockSequenceStart
  let l ← l.dropKey
  return ((l.allowKey true).emit .blockEntry).skip 1

/-- A question mark before a key. -/
def key (l : Lexer) : Read Lexer := do
  if !l.inFlow && !l.keyAllowed then throw .keyNotAllowed
  let l := l.openBlock l.cursor.column none .blockMappingStart
  let l ← l.dropKey
  return ((l.allowKey (!l.inFlow)).emit .key).skip 1

/-- A colon before a value, which may tell that a key stood before it. -/
def value (l : Lexer) : Read Lexer := do
  match l.pending with
  | some pending :: _ =>
    let l := l.emitAt pending.before .key
    let l := l.openBlock pending.position.column (some pending.before) .blockMappingStart
    return (((l.setPending none).allowKey false).emit .value).skip 1
  | _ =>
    if !l.inFlow && !l.keyAllowed then throw .valueNotAllowed
    let l := l.openBlock l.cursor.column none .blockMappingStart
    return ((l.allowKey (!l.inFlow)).emit .value).skip 1

/-- The name after the indicator of an anchor or an alias. -/
def anchor (l : Lexer) (token : List Char → Token) : Read Lexer := do
  let l := (← l.saveKey).allowKey false
  let l := l.skip 1
  let name := l.cursor.taken isWord
  let l := l.skip name.length
  let ends := startsGap l.cursor.rest ||
    startsWith ['?', ':', ',', ']', '\x7d', '%', '@', '\x60'] l.cursor.rest
  if name.isEmpty || !ends then throw .badAnchor
  return l.emit (token name)

/-- The parts of a tag: its handle, which is empty for a whole tag, and its suffix. -/
def readTag (c : Cursor) : Read (List Char × List Char × Cursor) := do
  match c.rest with
  | '!' :: '<' :: _ =>
    let c := c.skip 2
    let (text, c) ← readTagText true c.rest.length [] c
    if text.isEmpty || !startsWith ['>'] c.rest then throw .badTag
    return ([], text, c.skip 1)
  | _ =>
    let (handle, c) ← readTagHandle false c
    if 1 < handle.length && handle.getLast? = some '!' then
      let (text, c) ← readTagText false c.rest.length [] c
      if text.isEmpty then throw .badTag
      return (handle, text, c)
    else
      let (text, c) ← readTagText false c.rest.length (handle.drop 1) c
      if (beforeZero text).isEmpty then return ([], ['!'], c) else return (['!'], text, c)

/-- A tag. -/
def tag (l : Lexer) : Read Lexer := do
  let l := (← l.saveKey).allowKey false
  let (handle, suffix, c) ← readTag l.cursor
  if !startsGap c.rest && !(l.inFlow && startsWith [','] c.rest) then throw .badTag
  return (l.moveTo c).emit (.tag handle suffix)

/-- A block scalar. -/
def blockScalar (l : Lexer) (literal : Bool) : Read Lexer := do
  let l := (← l.dropKey).allowKey true
  let (text, c) ← readBlock literal l.indent l.cursor
  return (l.moveTo c).emit (.scalar text (if literal then .literal else .folded))

/-- A quoted scalar. -/
def quotedScalar (l : Lexer) (quote : Char) (style : Style) : Read Lexer := do
  let l := (← l.saveKey).allowKey false
  let (text, c) ← readQuoted quote l.cursor
  return (l.moveTo c).emit (.scalar text style)

/-- A plain scalar; after a line end a key may start. -/
def plainScalar (l : Lexer) : Read Lexer := do
  let l := (← l.saveKey).allowKey false
  let (text, broken, c) ← readPlain l.inFlow (l.indent + 1).toNat l.cursor
  return ((if broken then l.allowKey true else l).moveTo c).emit (.scalar text .plain)

/-! ## All tokens -/

/-- Characters that start no plain scalar, or do so only before another character. -/
def indicators : List Char :=
  ['-', '?', ':', ',', '[', ']', '\x7b', '\x7d', '#', '&', '*', '!', '|', '>', '\x27', '"', '%',
    '@', '\x60']

/-- Whether a plain scalar starts with a character and what follows it. -/
def startsPlain (flow : Bool) (c : Char) (r : List Char) : Bool :=
  (!isGap c && !indicators.contains c) || (c = '-' && !startsWith [' ', '\t'] r) ||
    (!flow && (c = '?' || c = ':') && !startsGap r)

/-- The token that starts with a character. -/
def token (l : Lexer) (c : Char) (r : List Char) : Read Lexer :=
  if l.cursor.column = 0 && c = '%' then l.directive
  else if l.cursor.column = 0 && startsMark '-' (c :: r) then l.documentMark .documentStart
  else if l.cursor.column = 0 && startsMark '.' (c :: r) then l.documentMark .documentEnd
  else if c = '[' then l.openFlow .flowSequenceStart
  else if c = '\x7b' then l.openFlow .flowMappingStart
  else if c = ']' then l.closeFlow .flowSequenceEnd
  else if c = '\x7d' then l.closeFlow .flowMappingEnd
  else if c = ',' then l.flowEntry
  else if c = '-' && startsGap r then l.blockEntry
  else if c = '?' && (l.inFlow || startsGap r) then l.key
  else if c = ':' && (l.inFlow || startsGap r) then l.value
  else if c = '*' then l.anchor .alias
  else if c = '&' then l.anchor .anchor
  else if c = '!' then l.tag
  else if c = '|' && !l.inFlow then l.blockScalar true
  else if c = '>' && !l.inFlow then l.blockScalar false
  else if c = '\x27' then l.quotedScalar '\x27' .single
  else if c = '"' then l.quotedScalar '"' .double
  else if startsPlain l.inFlow c r then l.plainScalar
  else .error .noToken

/-- Move on to the next token, closing what ends before it. -/
def toToken (l : Lexer) : Read Lexer := do
  let l := l.skipGap (l.cursor.rest.length + 1)
  let pending ← dropStaleKeys l.cursor.position l.pending
  return { l with pending := pending }.closeBlocks l.cursor.column

/-- The end of the text, which closes all blocks. -/
def finish (l : Lexer) : Read Lexer := (l.closeBlocks (-1)).dropKey

/-- The tokens of the rest of a text. -/
def run : Nat → Lexer → Read (List Token)
  | 0, _ => .error .tooLong
  | n + 1, l => do
    let l ← l.toToken
    match l.cursor.rest with
    | [] => return (← l.finish).found.reverse
    | c :: r => run n (← l.token c r)

end Lexer

/-- The tokens of a text; a mark of the byte order before it does not count. -/
def tokens (s : List Char) : Read (List Token) :=
  let s := match s with
    | '\ufeff' :: r => r
    | s => s
  if s.all isAllowed then (Lexer.ofChars s).run (s.length + 1) else .error .controlCharacter

end MetricRelay.Yaml
