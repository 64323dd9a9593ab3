import MetricRelay.Yaml.Record

/-!
# Block texts

A block text writes a record line by line: a name, a colon and a value, or a name and a colon
with the lines of a record inside, further to the right.  Names and values are words or stand
in double quotes.  Blanks between the parts, comments and empty lines are free.

Main definitions:

- `Block.Word` and `Block.Quoted`: the ways to write a name or a value.
- `Block.Ending`: the end of a line, and the lines without content after it.
- `Block.Line` and `Block.Item`: a field, and a field or a record inside.
- `Block`: a whole text, with its characters, its tokens and the node that it writes.
-/

namespace MetricRelay.Yaml

/-! ## Words and quoted texts -/

/-- A printable character of ASCII. -/
def isPrintable (c : Char) : Bool := 0x20 ≤ c.toNat && c.toNat ≤ 0x7e

namespace Block

/-- Letters, digits, underscores and hyphens, with no hyphen at the start. -/
structure Word where
  first : Char
  rest : List Char
  isWord_first : isWord first = true
  first_ne : first ≠ '-'
  isWord_rest : rest.all isWord = true

/-- The characters of a word. -/
def Word.chars (w : Word) : List Char := w.first :: w.rest

/-- A text of printable characters. -/
structure Quoted where
  text : List Char
  isPrintable_text : text.all isPrintable = true

/-- A character between double quotes; quotes and backslashes are escaped. -/
def escapeChar (c : Char) : List Char := if c = '"' ∨ c = '\\' then ['\\', c] else [c]

/-- A text between double quotes. -/
def escape (text : List Char) : List Char := text.flatMap escapeChar

/-- A text in double quotes. -/
def Quoted.chars (q : Quoted) : List Char := '"' :: (escape q.text ++ ['"'])

/-- A name, which is no longer than a key may be. -/
inductive Name where
  | word (w : Word) (short : w.chars.length ≤ 1024)
  | quoted (q : Quoted) (short : q.chars.length ≤ 1024)

namespace Name

/-- The characters of a name. -/
def chars : Name → List Char
  | word w _ => w.chars
  | quoted q _ => q.chars

/-- What a name says. -/
def text : Name → List Char
  | word w _ => w.chars
  | quoted q _ => q.text

/-- What a name says, as a text. -/
def label (k : Name) : String := String.ofList k.text

/-- How a name is written. -/
def style : Name → Style
  | word .. => .plain
  | quoted .. => .double

/-- The token of a name. -/
def token (k : Name) : Token := .scalar k.text k.style

/-- The node of a name. -/
def node (k : Name) : Node := .scalar none k.text k.style

end Name

/-- What stands as a value behind a colon. -/
inductive Scalar where
  | nothing
  | word (w : Word)
  | quoted (q : Quoted)

namespace Scalar

/-- The characters of a value. -/
def chars : Scalar → List Char
  | nothing => []
  | word w => w.chars
  | quoted q => q.chars

/-- The tokens of a value. -/
def tokens : Scalar → List Token
  | nothing => []
  | word w => [.scalar w.chars .plain]
  | quoted q => [.scalar q.text .double]

/-- The node of a value. -/
def node : Scalar → Node
  | nothing => .absent
  | word w => .scalar none w.chars .plain
  | quoted q => .scalar none q.text .double

/-- The characters between a colon and the end of the line: blanks and a value, if there is
one. -/
def behindColon (gap : Nat) : Scalar → List Char
  | nothing => []
  | v => ' ' :: List.replicate gap ' ' ++ v.chars

end Scalar

/-! ## Lines -/

/-- The rest of a line without content: blanks, and perhaps a comment. -/
structure Blank where
  spaces : Nat
  comment : Option (List Char)
  isAllowed_comment : ∀ text ∈ comment, text.all (fun c => isAllowed c && !isBreak c) = true

/-- The characters of a comment. -/
def commentChars : Option (List Char) → List Char
  | some text => '#' :: text
  | none => []

/-- The characters of a line without content. -/
def Blank.chars (b : Blank) : List Char := List.replicate b.spaces ' ' ++ commentChars b.comment

/-- The end of a line, where a comment stands away from the content, and the lines without
content after it. -/
structure Ending where
  first : Blank
  apart : first.comment.isSome = true → 0 < first.spaces
  more : List Blank

/-- The characters of an ending. -/
def Ending.chars (e : Ending) : List Char := e.first.chars ++ e.more.flatMap ('\n' :: ·.chars)

/-- A field: its name and its value, with `gap` blanks more than one between them. -/
structure Line where
  name : Name
  gap : Nat
  value : Scalar
  ending : Ending

namespace Line

/-- The characters of a field, from its name on. -/
def chars (l : Line) : List Char :=
  l.name.chars ++ ':' :: (l.value.behindColon l.gap ++ l.ending.chars)

/-- The tokens of a field. -/
def tokens (l : Line) : List Token := .key :: l.name.token :: .value :: l.value.tokens

/-- The name and the value of a field. -/
def entry (l : Line) : String × Node := (l.name.label, l.value.node)

end Line

/-- The characters of fields in a column, each on a line of its own. -/
def lineChars (column : Nat) (ls : List Line) : List Char :=
  ls.flatMap fun l => '\n' :: (List.replicate column ' ' ++ l.chars)

/-- A record inside another one: its name, and its fields, `indent` blanks more than one to the
right. -/
structure Section where
  name : Name
  ending : Ending
  indent : Nat
  first : Line
  more : List Line

namespace Section

/-- The fields of a record. -/
def lines (s : Section) : List Line := s.first :: s.more

/-- The line with the name of a record. -/
def head (s : Section) : Line := ⟨s.name, 0, .nothing, s.ending⟩

/-- The characters of a record. -/
def chars (s : Section) : List Char := s.head.chars ++ lineChars (s.indent + 1) s.lines

/-- The tokens of a record. -/
def tokens (s : Section) : List Token :=
  s.head.tokens ++ .blockMappingStart :: (s.lines.flatMap Line.tokens ++ [.blockEnd])

/-- The node of the fields of a record. -/
def node (s : Section) : Node := .mapping (s.lines.map fun l => (l.name.node, l.value.node))

end Section

/-- A field or a record inside. -/
inductive Item where
  | line (l : Line)
  | record (s : Section)

namespace Item

/-- The name of an item. -/
def name : Item → Name
  | line l => l.name
  | record s => s.name

/-- The characters of an item. -/
def chars : Item → List Char
  | line l => l.chars
  | record s => s.chars

/-- The tokens of an item. -/
def tokens : Item → List Token
  | line l => l.tokens
  | record s => s.tokens

/-- The node behind the name of an item. -/
def node : Item → Node
  | line l => l.value.node
  | record s => s.node

/-- The name of an item and the node behind it. -/
def entry (i : Item) : String × Node := (i.name.label, i.node)

end Item

/-- The characters of items, each on a line of its own. -/
def itemChars (is : List Item) : List Char := is.flatMap ('\n' :: ·.chars)

end Block

/-! ## Block texts -/

/-- A text that writes a record line by line, after some lines without content.  The last line
may end with a line end or without one. -/
structure Block where
  opening : List Block.Blank
  first : Block.Item
  more : List Block.Item

namespace Block

/-- The items of a text. -/
def items (b : Block) : List Item := b.first :: b.more

/-- The characters of a text. -/
def chars (b : Block) : List Char :=
  b.opening.flatMap (·.chars ++ ['\n']) ++ (b.first.chars ++ itemChars b.more)

/-- The text as such. -/
def text (b : Block) : String := String.ofList b.chars

/-- The tokens of a text. -/
def tokens (b : Block) : List Token :=
  .blockMappingStart :: (b.items.flatMap Item.tokens ++ [.blockEnd])

/-- The node of a text. -/
def root (b : Block) : Node := .mapping (b.items.map fun i => (i.name.node, i.node))

/-! ## Characters of a block text -/

/-- The characters of words can be printed. -/
theorem isPrintable_of_isWord {c : Char} (h : isWord c = true) : isPrintable c = true := by
  simp only [isWord, isDigit, Bool.or_eq_true, Bool.and_eq_true, decide_eq_true_eq, Char.le_def,
    UInt32.le_iff_toNat_le] at h
  simp only [isPrintable, Bool.and_eq_true, decide_eq_true_eq]
  rcases h with (((⟨hlow, hhigh⟩ | ⟨hlow, hhigh⟩) | ⟨hlow, hhigh⟩) | rfl) | rfl
  · exact ⟨Nat.le_trans (by decide) hlow, Nat.le_trans hhigh (by decide)⟩
  · exact ⟨Nat.le_trans (by decide) hlow, Nat.le_trans hhigh (by decide)⟩
  · exact ⟨Nat.le_trans (by decide) hlow, Nat.le_trans hhigh (by decide)⟩
  · decide
  · decide

/-- What can be printed is allowed in a document. -/
theorem isAllowed_of_isPrintable {c : Char} (h : isPrintable c = true) : isAllowed c = true := by
  simp only [isPrintable, Bool.and_eq_true, decide_eq_true_eq] at h
  simp [isAllowed, h]

/-- A text of printable characters may be written anywhere. -/
theorem all_isAllowed {s : List Char} (h : s.all isPrintable = true) :
    s.all isAllowed = true :=
  List.all_eq_true.2 fun c hc => isAllowed_of_isPrintable (List.all_eq_true.1 h c hc)

theorem Word.all_isWord (w : Word) : w.chars.all isWord = true := by
  rw [Word.chars, List.all_cons, w.isWord_first, w.isWord_rest]
  rfl

theorem Word.all_isAllowed (w : Word) : w.chars.all isAllowed = true :=
  Block.all_isAllowed
    (List.all_eq_true.2 fun c hc => isPrintable_of_isWord (List.all_eq_true.1 w.all_isWord c hc))

theorem Quoted.all_isAllowed (q : Quoted) : q.chars.all isAllowed = true := by
  have hchar : ∀ c ∈ q.text, (escapeChar c).all isPrintable = true := by
    intro c hc
    have hprintable := List.all_eq_true.1 q.isPrintable_text c hc
    unfold escapeChar
    split
    · simp [hprintable, show isPrintable '\\' = true from rfl]
    · simp [hprintable]
  refine Block.all_isAllowed ?_
  rw [Quoted.chars, List.all_cons, List.all_append, escape, List.all_flatMap,
    List.all_eq_true.2 hchar]
  rfl

theorem Name.all_isAllowed (k : Name) : k.chars.all isAllowed = true := by
  cases k with
  | word w => exact w.all_isAllowed
  | quoted q => exact q.all_isAllowed

theorem all_isAllowed_blanks (k : Nat) : (List.replicate k ' ').all isAllowed = true :=
  List.all_eq_true.2 fun c hc => by
    rw [(List.mem_replicate.1 hc).2]
    rfl

/-- A scalar behind its colon is made of characters that are allowed. -/
theorem Scalar.all_isAllowed (gap : Nat) (v : Scalar) :
    (v.behindColon gap).all isAllowed = true := by
  cases v with
  | nothing => rfl
  | word w =>
    rw [behindColon, List.all_append, List.all_cons, all_isAllowed_blanks, chars, w.all_isAllowed]
    · rfl
    · simp
  | quoted q =>
    rw [behindColon, List.all_append, List.all_cons, all_isAllowed_blanks, chars, q.all_isAllowed]
    · rfl
    · simp

/-- A blank line is made of characters that are allowed, and so is its comment. -/
theorem Blank.all_isAllowed (b : Blank) : b.chars.all isAllowed = true := by
  rw [Blank.chars, List.all_append, all_isAllowed_blanks, Bool.true_and]
  cases hcomment : b.comment with
  | none => rfl
  | some text =>
    have htext := List.all_eq_true.1 (b.isAllowed_comment text hcomment)
    rw [commentChars, List.all_cons, List.all_eq_true.2 fun c hc =>
      (Bool.and_eq_true _ _ ▸ htext c hc).1]
    rfl

theorem Ending.all_isAllowed (e : Ending) : e.chars.all isAllowed = true := by
  rw [Ending.chars, List.all_append, e.first.all_isAllowed, List.all_flatMap]
  simp [Blank.all_isAllowed, show isAllowed '\n' = true from rfl]

/-- A line is made of characters that are allowed. -/
theorem Line.all_isAllowed (l : Line) : l.chars.all isAllowed = true := by
  rw [Line.chars, List.all_append, List.all_cons, List.all_append, l.name.all_isAllowed,
    l.value.all_isAllowed, l.ending.all_isAllowed]
  rfl

theorem all_isAllowed_lineChars (column : Nat) (ls : List Line) :
    (lineChars column ls).all isAllowed = true := by
  rw [lineChars, List.all_flatMap]
  simp only [List.all_cons, List.all_append, all_isAllowed_blanks, Line.all_isAllowed]
  simp [show isAllowed '\n' = true from rfl]

/-- A document has allowed characters only, as all its items have. -/
theorem Item.all_isAllowed (i : Item) : i.chars.all isAllowed = true := by
  cases i with
  | line l => exact l.all_isAllowed
  | record s =>
    rw [Item.chars, Section.chars, List.all_append, s.head.all_isAllowed, all_isAllowed_lineChars]
    rfl

/-- A block text holds only characters that a text may hold. -/
theorem all_isAllowed_chars (b : Block) : b.chars.all isAllowed = true := by
  simp only [chars, itemChars, List.all_append, List.all_flatMap, List.all_cons, List.all_nil,
    Blank.all_isAllowed, Item.all_isAllowed]
  simp [show isAllowed '\n' = true from rfl]

end Block

end MetricRelay.Yaml
