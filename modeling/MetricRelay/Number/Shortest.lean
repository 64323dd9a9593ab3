import MetricRelay.Number.Binary64

/-!
# The fewest digits that read back

Among the decimal numbers that round to a given double there are some with the fewest digits.
They lie on the coarsest decimal grid that has a point in the double's rounding interval; of the
two grid points next to the double the nearer one in the interval is taken.

Numbers are measured here in grains of `10 ^ -1074`, so that every double is a natural number of
half grains.

Main definitions:

- `grainsPerUnit`: how many grains make the unit of doubles.
- `Window`: a double and the ends of its rounding interval.
- `shortest`: the digits and the power of ten of the shortest decimal number.
-/

namespace MetricRelay

/-- How many times `10 ^ -1074` makes a unit. -/
def Binary64.grainsPerUnit : Nat := Nat.pow 5 1074

/-- Which way a double halfway between two shortest decimal numbers goes. -/
inductive Tie where
  | up
  | even
  deriving DecidableEq

/-- A number and the interval of numbers that round to it, with its ends in it or not. -/
structure Window where
  low : Nat
  value : Nat
  high : Nat
  closed : Bool

namespace Window

/-- Whether a number rounds to the window's. -/
def admits (w : Window) (n : Nat) : Bool :=
  if w.closed then w.low ≤ n && n ≤ w.high else w.low < n && n < w.high

/-- The window of the double of a positive rank, in half grains. -/
def ofRank (rank : Nat) : Window :=
  let half := fun n => n * Binary64.grainsPerUnit
  { low := half (Binary64.units (rank - 1) + Binary64.units rank)
    value := half (2 * Binary64.units rank)
    high := half (Binary64.units rank + Binary64.units (rank + 1))
    closed := rank % 2 == 0 }

/-- The multiple of `step` in the window that is nearest to its number, given by its factor. -/
def nearest? (w : Window) (tie : Tie) (step : Nat) : Option Nat :=
  let below := w.value / step
  match w.admits (below * step), w.admits ((below + 1) * step) with
  | true, false => some below
  | false, true => some (below + 1)
  | false, false => none
  | true, true =>
    let past := 2 * (w.value % step)
    if past < step then some below
    else if step < past then some (below + 1)
    else match tie with
      | .up => some (below + 1)
      | .even => some (below + below % 2)

/-- The coarsest grid of at most `10 ^ level` that has a point in the window: its point and its
level.  Every number is on the finest grid. -/
def coarsest (w : Window) (tie : Tie) : Nat → Nat × Nat
  | 0 => (w.value / 2, 0)
  | level + 1 =>
    match w.nearest? tie (2 * Nat.pow 10 (level + 1)) with
    | some digits => (digits, level + 1)
    | none => w.coarsest tie level

end Window

/-- The digits and the power of ten of the shortest decimal number that rounds to the double of
a positive rank. -/
def shortest (tie : Tie) (rank : Nat) : Nat × Int :=
  let w := Window.ofRank rank
  let found := w.coarsest tie (Nat.log2 w.value * 30103 / 100000 + 1)
  (found.1, (found.2 : Int) - 1074)

end MetricRelay
