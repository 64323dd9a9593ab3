import MetricRelay.Number.Count
import MetricRelay.Number.Rounding

/-!
# Reading decimal numbers

The value in a path or a stored record is free text.  A total is an optional sign and digits; a
reading is an optional sign followed by digits with at most one point and an optional exponent,
or one of the names of the numbers without an end.  A number in a message is a decimal literal
too, but has no name.  The two ways in which readings arrive count the digits of an exponent
differently: free text stops counting when the exponent is large enough.

Main definitions:

- `readCount?` and `readDouble?`: free text.
- `readNumeral?`: the number of a message.
-/

namespace MetricRelay

/-- A decimal digit. -/
def isDigit (c : Char) : Bool := '0' ≤ c && c ≤ '9'

/-- The number of a decimal digit. -/
def digitValue (c : Char) : Nat := c.toNat - 0x30

/-- The natural number of a row of digits, after the digits read already. -/
def foldDigits (start : Nat) (s : List Char) : Nat :=
  s.foldl (fun n c => n * 10 + digitValue c) start

/-- The natural number of a row of digits. -/
def digitsNat (s : List Char) : Nat := foldDigits 0 s

/-- The number of a row of digits as the exponent of free text: the digits that follow once the
number has passed `0xffff` are not counted. -/
def cappedDigits (s : List Char) : Nat :=
  s.foldl (fun n c => if n < 0x10000 then n * 10 + digitValue c else n) 0

/-- The number of a text that is a non-empty row of digits, as `number` counts them. -/
def readDigits? (number : List Char → Nat) (s : List Char) : Option Nat :=
  if s.isEmpty || !s.all isDigit then none else some (number s)

/-- The natural number of a text that is a non-empty row of digits. -/
def readNat? (s : List Char) : Option Nat := readDigits? digitsNat s

/-- Split off an optional sign. -/
def splitSign : List Char → Bool × List Char
  | '-' :: r => (true, r)
  | '+' :: r => (false, r)
  | r => (false, r)

/-- An optional sign and digits, as `number` counts them. -/
def readSigned? (number : List Char → Nat) (s : List Char) : Option Int :=
  let (negative, r) := splitSign s
  (readDigits? number r).map fun n => if negative then -(n : Int) else n

/-- An optional sign and digits. -/
def readInt? (s : List Char) : Option Int := readSigned? digitsNat s

/-- An optional sign and digits, for a number that is a total. -/
def readCount? (s : List Char) : Option Count :=
  (readInt? s).bind Count.ofInt?

/-- An ASCII letter in lower case; any other character is not changed. -/
def lowerAscii (c : Char) : Char :=
  if 'A' ≤ c && c ≤ 'Z' then Char.ofNat (c.toNat + 0x20) else c

/-- The names of the doubles that are not finite, in any case. -/
def readName? (negative : Bool) (s : List Char) : Option Binary64 :=
  let s := s.map lowerAscii
  if s = "nan".toList then some .nan
  else if s = "inf".toList ∨ s = "infinity".toList then some (.infinite negative)
  else none

/-- The exponent that ends a decimal literal: nothing, or a letter and an integer. -/
def readExponent? (number : List Char → Nat) : List Char → Option Int
  | [] => some 0
  | c :: r => if c = 'e' ∨ c = 'E' then readSigned? number r else none

/-- The size of a decimal literal as digits and a power of ten, the digits of its exponent as
`number` counts them. -/
def readMagnitude? (number : List Char → Nat) (s : List Char) : Option (Nat × Int) :=
  let whole := s.takeWhile isDigit
  let r := s.dropWhile isDigit
  let (fraction, r) :=
    match r with
    | '.' :: r => (r.takeWhile isDigit, r.dropWhile isDigit)
    | r => ([], r)
  if whole.isEmpty && fraction.isEmpty then none
  else (readExponent? number r).map fun e => (digitsNat (whole ++ fraction), e - fraction.length)

/-- A reading as free text: a decimal literal or the name of a double that is not finite. -/
def readDouble? (s : List Char) : Option Binary64 :=
  let (negative, r) := splitSign s
  match readName? negative r with
  | some x => some x
  | none => (readMagnitude? cappedDigits r).map fun m => Binary64.ofDecimal negative m.1 m.2

/-- The double nearest to the number of a message, whose exponent is counted in full. -/
def readNumeral? (s : List Char) : Option Binary64 :=
  let (negative, r) := splitSign s
  (readMagnitude? digitsNat r).map fun m => Binary64.ofDecimal negative m.1 m.2

end MetricRelay
