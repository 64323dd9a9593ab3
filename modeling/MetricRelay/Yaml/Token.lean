import MetricRelay.Number.Literal
import MetricRelay.Text.Hex

/-!
# Tokens of a YAML text

The vocabulary of YAML: characters with a part in its syntax, positions in a text, tokens, and the
reasons for which a text is refused.

Main definitions:

- `Token` and `Style`.
- `Position` and `Cursor`: where in a text one is, and what is left of it.
- `isAllowed`: the characters that a text may hold.
- `Fault`: why a text is refused.
-/

namespace MetricRelay.Yaml

/-- The way in which a scalar is written. -/
inductive Style where
  | plain
  | single
  | double
  | literal
  | folded
  deriving DecidableEq

/-- A token. -/
inductive Token where
  | version (major minor : Nat)
  | tagDirective (handle tag : List Char)
  | documentStart
  | documentEnd
  | blockSequenceStart
  | blockMappingStart
  | blockEnd
  | flowSequenceStart
  | flowSequenceEnd
  | flowMappingStart
  | flowMappingEnd
  | blockEntry
  | flowEntry
  | key
  | value
  | alias (name : List Char)
  | anchor (name : List Char)
  | tag (handle suffix : List Char)
  | scalar (text : List Char) (style : Style)
  deriving DecidableEq

/-- Why a text is refused. -/
inductive Fault where
  | controlCharacter
  | noToken
  | keyNotAllowed
  | entryNotAllowed
  | valueNotAllowed
  | missingColon
  | unexpectedColon
  | tabIndent
  | badDirective
  | badAnchor
  | badTag
  | badBlockHeader
  | unterminated
  | documentMark
  | badEscape
  | tooLong
  | noContent
  | noEntry
  | noKey
  | undefinedTag
  | undefinedAnchor
  | badVersion
  | noDocument
  | manyDocuments
  | wrongType
  | unknownField
  | repeatedField
  | missingField
  deriving DecidableEq

namespace Fault

/-- The wording of a fault. -/
def message : Fault → String
  | controlCharacter => "a character that no text may hold"
  | noToken => "a character that starts no token"
  | keyNotAllowed => "a mapping key where none may stand"
  | entryNotAllowed => "a sequence entry where none may stand"
  | valueNotAllowed => "a mapping value where none may stand"
  | missingColon => "a key without its colon"
  | unexpectedColon => "a colon inside a plain scalar"
  | tabIndent => "a tab in the indentation"
  | badDirective => "a directive that is not well formed"
  | badAnchor => "an anchor that is not well formed"
  | badTag => "a tag that is not well formed"
  | badBlockHeader => "a block scalar whose first line is not well formed"
  | unterminated => "a quoted scalar without its end"
  | documentMark => "a document mark inside a quoted scalar"
  | badEscape => "an escape that is not well formed"
  | tooLong => "more steps than characters"
  | noContent => "no content where a value has to stand"
  | noEntry => "neither an entry nor the end of a sequence"
  | noKey => "neither a key nor the end of a mapping"
  | undefinedTag => "a tag handle that is not defined"
  | undefinedAnchor => "an alias without its anchor"
  | badVersion => "a version that is not supported"
  | noDocument => "no document"
  | manyDocuments => "more than one document"
  | wrongType => "a value of another type than its field has"
  | unknownField => "a field that is not known"
  | repeatedField => "a field that stands twice"
  | missingField => "a field that is missing"

end Fault

/-- The outcome of reading a text or a part of one. -/
abbrev Read (α : Type) := Except Fault α

/-! ## Characters -/

/-- A space or a tab. -/
def isSpace (c : Char) : Bool := c = ' ' || c = '\t'

/-- A character that ends a line. -/
def isBreak (c : Char) : Bool :=
  c = '\n' || c = '\r' || c = '\u0085' || c = '\u2028' || c = '\u2029'

/-- A space, a tab or the end of a line. -/
def isGap (c : Char) : Bool := isSpace c || isBreak c

/-- A letter, a digit, a hyphen or an underscore, in ASCII. -/
def isWord (c : Char) : Bool :=
  isDigit c || ('A' ≤ c && c ≤ 'Z') || ('a' ≤ c && c ≤ 'z') || c = '_' || c = '-'

/-- A character that a text may hold. -/
def isAllowed (c : Char) : Bool :=
  let n := c.toNat
  n = 0x9 || n = 0xa || n = 0xd || (0x20 ≤ n && n ≤ 0x7e) || n = 0x85 || (0xa0 ≤ n && n ≤ 0xfffd) ||
    0x10000 ≤ n

/-- Whether a text is at its end, or goes on with a space, a tab or the end of a line. -/
def startsGap : List Char → Bool
  | [] => true
  | c :: _ => isGap c

/-- Whether a text is at its end, or at the end of a line. -/
def startsBreak : List Char → Bool
  | [] => true
  | c :: _ => isBreak c

/-- Whether a text starts with a character that is one of some. -/
def startsWith (among : List Char) : List Char → Bool
  | [] => false
  | c :: _ => among.contains c

/-- Whether a text starts with three given characters and then a gap. -/
def startsMark (c : Char) : List Char → Bool
  | x :: y :: z :: r => x = c && y = c && z = c && startsGap r
  | _ => false

/-- Whether a text starts with one of the marks that divide documents. -/
def startsDocumentMark (s : List Char) : Bool := startsMark '-' s || startsMark '.' s

/-- The part of a tag before its first zero byte, which an escape can write. -/
def beforeZero (tag : List Char) : List Char := tag.takeWhile (· ≠ '\x00')

/-! ## Positions -/

/-- A place in a text: its line and column, and how many characters are before it. -/
structure Position where
  line : Nat
  column : Nat
  index : Nat
  deriving DecidableEq

/-- The place after some characters of the same line. -/
def Position.right (p : Position) (n : Nat) : Position :=
  { p with column := p.column + n, index := p.index + n }

/-- The start of the next line, after a line end of some characters. -/
def Position.down (p : Position) (n : Nat) : Position :=
  { line := p.line + 1, column := 0, index := p.index + n }

/-- A place in a text and what follows it. -/
structure Cursor where
  rest : List Char
  position : Position
  deriving DecidableEq

namespace Cursor

/-- The start of a text. -/
def ofChars (s : List Char) : Cursor := ⟨s, ⟨0, 0, 0⟩⟩

/-- The column of a place. -/
def column (c : Cursor) : Nat := c.position.column

/-- Past some characters of the same line. -/
def skip (c : Cursor) (n : Nat) : Cursor := ⟨c.rest.drop n, c.position.right n⟩

/-- Past the characters of a class, none of which ends a line. -/
def skipWhile (c : Cursor) (p : Char → Bool) : Cursor :=
  ⟨c.rest.dropWhile p, c.position.right (c.rest.takeWhile p).length⟩

/-- The characters of a class at a place. -/
def taken (c : Cursor) (p : Char → Bool) : List Char := c.rest.takeWhile p

/-- The line end at a place, as a character of a scalar, and the place after it.  A return and a
feed are one line end. -/
def readBreak? (c : Cursor) : Option (Char × Cursor) :=
  match c.rest with
  | '\r' :: '\n' :: r => some ('\n', ⟨r, c.position.down 2⟩)
  | b :: r =>
    if b = '\u2028' || b = '\u2029' then some (b, ⟨r, c.position.down 1⟩)
    else if isBreak b then some ('\n', ⟨r, c.position.down 1⟩)
    else none
  | [] => none

end Cursor

end MetricRelay.Yaml
