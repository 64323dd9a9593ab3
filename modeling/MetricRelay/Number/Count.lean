/-!
# Totals

A total is a signed 64-bit integer.  Adding to it and taking away from it stop at the two ends
of the range instead of leaving it.

Main definitions:

- `Count`: an integer with the proof that it fits.
- `Count.clamp`: the nearest total to an integer.
- `Count.add` and `Count.sub`: exact arithmetic, clamped.

Main results:

- `Count.clamp_of_mem`: an integer that fits is not changed.
-/

namespace MetricRelay

/-- The least total. -/
def Count.least : Int := -9223372036854775808

/-- The greatest total. -/
def Count.greatest : Int := 9223372036854775807

/-- A signed 64-bit total. -/
structure Count where
  val : Int
  least_le : Count.least ≤ val
  le_greatest : val ≤ Count.greatest
  deriving DecidableEq

namespace Count

/-- The total for an integer, if it fits. -/
def ofInt? (n : Int) : Option Count :=
  if h : least ≤ n ∧ n ≤ greatest then some ⟨n, h.1, h.2⟩ else none

/-- The total nearest to an integer. -/
def clamp (n : Int) : Count :=
  if h : n < least then ⟨least, by decide, by decide⟩
  else if h' : greatest < n then ⟨greatest, by decide, by decide⟩
  else ⟨n, by omega, by omega⟩

/-- The total of nothing. -/
def zero : Count := ⟨0, by decide, by decide⟩

instance : Inhabited Count := ⟨zero⟩

/-- Add, stopping at the ends of the range. -/
def add (a b : Count) : Count := clamp (a.val + b.val)

/-- Take away, stopping at the ends of the range. -/
def sub (a b : Count) : Count := clamp (a.val - b.val)

/-- A total is known by its integer. -/
@[ext]
theorem ext {a b : Count} (h : a.val = b.val) : a = b := by
  cases a; cases b; simp_all

/-- An integer inside the range is its own nearest total. -/
theorem clamp_of_mem {n : Int} (h : least ≤ n) (h' : n ≤ greatest) : (clamp n).val = n := by
  unfold clamp
  split
  · omega
  · split
    · omega
    · rfl

/-- The integer of a total is one. -/
@[simp]
theorem ofInt?_val (a : Count) : ofInt? a.val = some a := by
  simp [ofInt?, a.least_le, a.le_greatest]

end Count

end MetricRelay
