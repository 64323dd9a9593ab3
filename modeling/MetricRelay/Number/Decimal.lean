import MetricRelay.Number.Shortest

/-!
# Writing decimal numbers

One double has one shortest row of digits, but three places write it in three ways.  A `Layout`
holds what they differ in.

Main definitions:

- `natText`, `intText`: whole numbers.
- `Layout.render`: a double in a given layout.
- `canonical`, `wire`, `inspected`: the three layouts in use.
-/

namespace MetricRelay

/-- The digit for a number below ten. -/
def decimalDigit (n : Nat) : Char :=
  Char.ofNat (0x30 + n % 10)

/-- The digits of a natural number, the last one first, without leading zeros. -/
def digitsReversed (n : Nat) : List Char :=
  if n < 10 then [decimalDigit n] else decimalDigit n :: digitsReversed (n / 10)
termination_by n
decreasing_by omega

/-- A natural number in base ten. -/
def natChars (n : Nat) : List Char :=
  (digitsReversed n).reverse

/-- An integer in base ten. -/
def intChars : Int → List Char
  | .ofNat n => natChars n
  | .negSucc n => '-' :: natChars (n + 1)

/-- A natural number in base ten. -/
def natText (n : Nat) : String := String.ofList (natChars n)

/-- An integer in base ten. -/
def intText (n : Int) : String := String.ofList (intChars n)

/-- How a row of digits is laid out.  The leading digit of a number stands for some power of ten;
between `leastPlain` and `mostPlain` the number is written without an exponent. -/
structure Layout where
  leastPlain : Option Int
  mostPlain : Option Int
  /-- Write `.0` after a whole number. -/
  keepPoint : Bool
  /-- Write a sign before a positive exponent. -/
  plusExponent : Bool
  tie : Tie

namespace Layout

/-- Whether a number whose leading digit stands for `10 ^ power` is written without exponent. -/
def isPlain (l : Layout) (power : Int) : Bool :=
  l.leastPlain.all (· ≤ power) && l.mostPlain.all (power ≤ ·)

/-- Digits that end at `10 ^ exponent`, without an exponent. -/
def plain (l : Layout) (digits : List Char) (exponent : Int) : List Char :=
  if 0 ≤ exponent then
    digits ++ List.replicate exponent.toNat '0' ++ (if l.keepPoint then ['.', '0'] else [])
  else
    let places := (-exponent).toNat
    if places < digits.length then
      digits.take (digits.length - places) ++ '.' :: digits.drop (digits.length - places)
    else
      '0' :: '.' :: List.replicate (places - digits.length) '0' ++ digits

/-- Digits whose leading one stands for `10 ^ power`, with that power behind them. -/
def scientific (l : Layout) (digits : List Char) (power : Int) : List Char :=
  let mantissa :=
    match digits with
    | [] => []
    | [d] => [d]
    | d :: r => d :: '.' :: r
  let sign := if l.plusExponent && 0 ≤ power then ['+'] else []
  mantissa ++ 'e' :: sign ++ intChars power

/-- The size of the finite double of a rank. -/
def magnitude (l : Layout) (rank : Nat) : List Char :=
  if rank = 0 then
    l.plain ['0'] 0
  else
    let s := shortest l.tie rank
    let digits := natChars s.1
    let power := s.2 + digits.length - 1
    if l.isPlain power then l.plain digits s.2 else l.scientific digits power

/-- The text of a double. -/
def chars (l : Layout) : Binary64 → List Char
  | .nan => ['N', 'a', 'N']
  | .infinite negative => (if negative then ['-'] else []) ++ ['i', 'n', 'f']
  | .finite negative rank => (if negative then ['-'] else []) ++ l.magnitude rank.val

/-- The text of a double. -/
def render (l : Layout) (x : Binary64) : String :=
  String.ofList (l.chars x)

end Layout

namespace Binary64

/-- Canonical texts have no exponent, and whole numbers have no point. -/
def canonical : Layout :=
  { leastPlain := none, mostPlain := none, keepPoint := false, plusExponent := false, tie := .up }

/-- On the wire, numbers from `10 ^ -5` to below `10 ^ 16` have no exponent, whole numbers keep a
point, and a positive exponent has its sign. -/
def wire : Layout :=
  { leastPlain := some (-5), mostPlain := some 15, keepPoint := true, plusExponent := true,
    tie := .even }

/-- When a cell is inspected, numbers from `10 ^ -4` to below `10 ^ 16` have no exponent, and whole
numbers keep a point. -/
def inspected : Layout :=
  { leastPlain := some (-4), mostPlain := some 15, keepPoint := true, plusExponent := false,
    tie := .up }

end Binary64

end MetricRelay
