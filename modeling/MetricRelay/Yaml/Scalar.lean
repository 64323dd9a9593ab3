import MetricRelay.Yaml.Token

/-!
# Scalars of a YAML text

A scalar may go on over several lines.  Where a line of a plain or quoted scalar ends, one line
end becomes a space, and of several the first is left out; spaces around them do not count.

Main definitions:

- `Gap`: the spaces and line ends between two parts of a scalar.
- `readPlain`, `readQuoted`, `readBlock`: the three kinds of scalar.
-/

namespace MetricRelay.Yaml

/-- Spaces and line ends between two parts of a scalar. -/
structure Gap where
  spaces : List Char
  broken : Bool
  first : List Char
  more : List Char

namespace Gap

/-- Nothing yet. -/
def none : Gap := ⟨[], false, [], []⟩

/-- A line end that is escaped, and so no part of the scalar. -/
def escaped : Gap := ⟨[], true, [], []⟩

/-- Whether there is something in the gap. -/
def isEmpty (g : Gap) : Bool := g.spaces.isEmpty && !g.broken

/-- A space or a tab more; at the start of a line it does not count. -/
def addSpace (g : Gap) (c : Char) : Gap :=
  if g.broken then g else { g with spaces := g.spaces ++ [c] }

/-- A line end more. -/
def addBreak (g : Gap) (c : Char) : Gap :=
  if g.broken then { g with more := g.more ++ [c] } else ⟨[], true, [c], []⟩

/-- What the gap is in the scalar. -/
def text (g : Gap) : List Char :=
  if !g.broken then g.spaces
  else if g.first = ['\n'] then (if g.more.isEmpty then [' '] else g.more)
  else g.first ++ g.more

/-- Read on to the next character that is neither a space nor a line end.  At the start of a line
no tab may stand before column `indent`. -/
def read (indent : Nat) : Nat → Gap → Cursor → Read (Gap × Cursor)
  | 0, g, c => .ok (g, c)
  | n + 1, g, c =>
    match c.readBreak? with
    | some (b, c) => read indent n (g.addBreak b) c
    | .none =>
      match c.rest with
      | x :: _ =>
        if isSpace x then
          if g.broken && x = '\t' && c.column < indent then .error .tabIndent
          else read indent n (g.addSpace x) (c.skip 1)
        else .ok (g, c)
      | [] => .ok (g, c)

end Gap

/-! ## Plain scalars -/

/-- The characters that end a plain scalar inside brackets. -/
def flowIndicators : List Char := [',', '[', ']', '\x7b', '\x7d']

/-- The part of a plain scalar up to a gap, a colon that ends a key, or, inside brackets, a
character that has a meaning there. -/
def plainPart (flow : Bool) : List Char → Read (List Char)
  | [] => .ok []
  | c :: r =>
    if isGap c then .ok []
    else if flow && c = ':' && startsWith ('?' :: flowIndicators) r then .error .unexpectedColon
    else if (c = ':' && startsGap r) || (flow && flowIndicators.contains c) then .ok []
    else (plainPart flow r).map (c :: ·)

/-- A plain scalar after a gap: the text that follows, whether it ends after a line end, and the
place after it. -/
def readPlainFrom (flow : Bool) (indent : Nat) :
    Nat → Gap → Cursor → Read (List Char × Bool × Cursor)
  | 0, gap, c => .ok ([], gap.broken, c)
  | n + 1, gap, c => do
    if (c.column = 0 && startsDocumentMark c.rest) || startsWith ['#'] c.rest then
      return ([], gap.broken, c)
    let part ← plainPart flow c.rest
    let (text, gap) := if part.isEmpty then ([], gap) else (gap.text ++ part, Gap.none)
    let c := c.skip part.length
    if !c.rest.isEmpty && startsGap c.rest then
      let (gap, c) ← gap.read indent n c
      if !flow && c.column < indent then return (text, gap.broken, c)
      let (more, broken, c) ← readPlainFrom flow indent n gap c
      return (text ++ more, broken, c)
    else return (text, gap.broken, c)

/-- A plain scalar; outside brackets its lines are indented to `indent` at least. -/
def readPlain (flow : Bool) (indent : Nat) (c : Cursor) : Read (List Char × Bool × Cursor) :=
  readPlainFrom flow indent (c.rest.length + 1) .none c

/-! ## Quoted scalars -/

/-- The character of an escape of one letter. -/
def letterEscape? (c : Char) : Option Char :=
  match c with
  | '0' => some '\x00'
  | 'a' => some '\x07'
  | 'b' => some '\x08'
  | 't' => some '\t'
  | '\t' => some '\t'
  | 'n' => some '\n'
  | 'v' => some '\x0b'
  | 'f' => some '\x0c'
  | 'r' => some '\r'
  | 'e' => some '\x1b'
  | ' ' => some ' '
  | '"' => some '"'
  | '/' => some '/'
  | '\\' => some '\\'
  | 'N' => some '\u0085'
  | '_' => some '\u00a0'
  | 'L' => some '\u2028'
  | 'P' => some '\u2029'
  | _ => none

/-- How many digits follow the letter of an escape by number. -/
def codeEscape? (c : Char) : Option Nat :=
  match c with
  | 'x' => some 2
  | 'u' => some 4
  | 'U' => some 8
  | _ => none

/-- The number of a row of digits in base sixteen. -/
def hexNumber? (s : List Char) : Option Nat :=
  s.foldlM (fun n c => (Hex.digitValue? c).map fun d => n * 16 + d) 0

/-- The character of an escape by number, if the number is one of a character. -/
def escapedChar? (digits : List Char) : Option Char := do
  let n ← hexNumber? digits
  if h : n.isValidChar then some (Char.ofNatAux n h) else none

/-- The character of an escape, and how long the escape is. -/
def readEscape? (c : Char) (r : List Char) : Option (Char × Nat) :=
  match codeEscape? c with
  | some n =>
    if r.length < n then none else (escapedChar? (r.take n)).map (·, n + 2)
  | none => (letterEscape? c).map (·, 2)

/-- How a part of a quoted scalar ends: before a gap or the closing quote, or with a line end that
is escaped. -/
inductive PartEnd where
  | here
  | escapedBreak

/-- The part of a quoted scalar up to a gap or the closing quote. -/
def readQuotedPart (quote : Char) : Nat → Cursor → Read (List Char × PartEnd × Cursor)
  | 0, _ => .error .tooLong
  | n + 1, c =>
    match c.rest with
    | [] => .ok ([], .here, c)
    | x :: r =>
      if isGap x then .ok ([], .here, c)
      else if x = quote then
        if quote = '\x27' && startsWith ['\x27'] r then
          (readQuotedPart quote n (c.skip 2)).map fun part => ('\x27' :: part.1, part.2)
        else .ok ([], .here, c)
      else if quote = '"' && x = '\\' then
        match (c.skip 1).readBreak? with
        | some (_, c) => .ok ([], .escapedBreak, c)
        | none =>
          match r with
          | [] => .error .badEscape
          | y :: r =>
            match readEscape? y r with
            | some (z, length) =>
              (readQuotedPart quote n (c.skip length)).map fun part => (z :: part.1, part.2)
            | none => .error .badEscape
      else (readQuotedPart quote n (c.skip 1)).map fun part => (x :: part.1, part.2)

/-- A quoted scalar after its opening quote. -/
def readQuotedFrom (quote : Char) : Nat → Cursor → Read (List Char × Cursor)
  | 0, _ => .error .tooLong
  | n + 1, c => do
    if c.column = 0 && startsDocumentMark c.rest then throw .documentMark
    if c.rest.isEmpty then throw .unterminated
    let (part, partEnd, c) ← readQuotedPart quote n c
    if startsWith [quote] c.rest then return (part, c.skip 1)
    let gap := match partEnd with
      | .here => Gap.none
      | .escapedBreak => Gap.escaped
    let (gap, c) ← gap.read 0 n c
    let (more, c) ← readQuotedFrom quote n c
    return (part ++ gap.text ++ more, c)

/-- A quoted scalar, from its opening quote on. -/
def readQuoted (quote : Char) (c : Cursor) : Read (List Char × Cursor) :=
  readQuotedFrom quote (c.rest.length + 2) (c.skip 1)

/-! ## Block scalars -/

/-- What happens to the line ends after a block scalar. -/
inductive Chomp where
  | clip
  | strip
  | keep
  deriving DecidableEq

/-- The sign that says what happens to the last line ends. -/
def chompOf? (c : Char) : Option Chomp :=
  if c = '-' then some .strip else if c = '+' then some .keep else none

/-- An indentation as a digit, which may not be zero; nothing if there is no digit. -/
def readIndentDigit (s : List Char) : Read (Nat × Nat) :=
  match s with
  | c :: _ =>
    if c = '0' then .error .badBlockHeader
    else if isDigit c then .ok (digitValue c, 1)
    else .ok (0, 0)
  | [] => .ok (0, 0)

/-- The marks after the indicator of a block scalar: what happens to the last line ends, the
indentation or zero, and the place after them. -/
def readBlockMarks (c : Cursor) : Read (Chomp × Nat × Cursor) :=
  match c.rest.head?.bind chompOf? with
  | some chomp => do
    let (increment, n) ← readIndentDigit (c.rest.drop 1)
    return (chomp, increment, c.skip (1 + n))
  | none => do
    let (increment, n) ← readIndentDigit c.rest
    let c := c.skip n
    if n = 0 then return (.clip, 0, c)
    match c.rest.head?.bind chompOf? with
    | some chomp => return (chomp, increment, c.skip 1)
    | none => return (.clip, increment, c)

/-- Line ends and the spaces of the indentation.  While the indentation is not known (`indent` is
zero) all spaces count to it.  Gives the line ends, the widest indentation seen and the place. -/
def readBlockBreaks (indent : Nat) :
    Nat → List Char → Nat → Cursor → Read (List Char × Nat × Cursor)
  | 0, breaks, widest, c => .ok (breaks, widest, c)
  | n + 1, breaks, widest, c =>
    let spaces := (c.taken (· = ' ')).length
    let spaces := if indent = 0 then spaces else min spaces (indent - c.column)
    let c := c.skip spaces
    let widest := max widest c.column
    if (indent = 0 || c.column < indent) && startsWith ['\t'] c.rest then .error .tabIndent
    else
      match c.readBreak? with
      | some (b, c) => readBlockBreaks indent n (breaks ++ [b]) widest c
      | none => .ok (breaks, widest, c)

/-- The line ends between two lines of a block scalar, where `plain` says that neither line starts
with a space: then a folded scalar joins the lines. -/
def blockJoin (literal plain : Bool) (leading breaks : List Char) : List Char :=
  if !literal && plain && leading = ['\n'] then
    (if breaks.isEmpty then [' '] else []) ++ breaks
  else leading ++ breaks

/-- The lines of a block scalar at its indentation, with the last line end and the line ends after
it apart. -/
def readBlockLines (literal : Bool) (indent : Nat) :
    Nat → List Char → List Char → Bool → Cursor →
      Read (List Char × List Char × List Char × Cursor)
  | 0, leading, breaks, _, c => .ok ([], leading, breaks, c)
  | n + 1, leading, breaks, blankBefore, c => do
    if c.column = indent && !c.rest.isEmpty then
      let blank := startsWith [' ', '\t'] c.rest
      let join := blockJoin literal (!blankBefore && !blank) leading breaks
      let line := c.taken (fun x => !isBreak x)
      let c := c.skip line.length
      let (leading, c) := match c.readBreak? with
        | some (b, c) => ([b], c)
        | none => ([], c)
      let (breaks, _, c) ← readBlockBreaks indent (n + 1) [] 0 c
      let (more, rest) ← readBlockLines literal indent n leading breaks blank c
      return (join ++ line ++ more, rest)
    else return ([], leading, breaks, c)

/-- A block scalar from its indicator on, inside a block of indentation `parent`. -/
def readBlock (literal : Bool) (parent : Int) (c : Cursor) : Read (List Char × Cursor) := do
  let (chomp, increment, c) ← readBlockMarks (c.skip 1)
  let c := c.skipWhile isSpace
  let c := if startsWith ['#'] c.rest then c.skipWhile (fun x => !isBreak x) else c
  if !startsBreak c.rest then throw .badBlockHeader
  let c := match c.readBreak? with
    | some (_, c) => c
    | none => c
  let given := if increment = 0 then 0 else (max parent 0).toNat + increment
  let (breaks, widest, c) ← readBlockBreaks given (c.rest.length + 1) [] 0 c
  let indent := if given = 0 then max (max widest (parent + 1).toNat) 1 else given
  let (text, leading, breaks, c) ←
    readBlockLines literal indent (c.rest.length + 1) [] breaks false c
  let text := if chomp = .strip then text else text ++ leading
  let text := if chomp = .keep then text ++ breaks else text
  return (text, c)

end MetricRelay.Yaml
