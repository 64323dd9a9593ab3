import MetricRelay.Text.Hex

/-!
# Percent escapes

A path segment may write any byte as `%` and two digits in base sixteen.  A `%` that does not
start such an escape stands for itself.

Main definitions:

- `unescape`: the bytes that a segment stands for.
- `decode?`: the text that a segment stands for, if its bytes form one.
-/

namespace MetricRelay.Percent

open Utf8 (Bytes)

/-- The number of a digit given as a byte. -/
def digitValue? (b : UInt8) : Option Nat :=
  Hex.digitValue? (Char.ofNat b.toNat)

/-- The byte of an escape, if `b` starts one and `r` follows. -/
def escape? (b : UInt8) (r : Bytes) : Option UInt8 :=
  if b = 0x25 then
    match r with
    | x :: y :: _ => do
      let high ← digitValue? x
      let low ← digitValue? y
      return (high * 16 + low).toUInt8
    | _ => none
  else none

/-- Replace each escape by its byte. -/
def unescape : Bytes → Bytes
  | [] => []
  | b :: r =>
    match escape? b r with
    | some v => v :: unescape (r.drop 2)
    | none => b :: unescape r
termination_by s => s.length
decreasing_by all_goals simp only [List.length_cons, List.length_drop]; omega

/-- The text of a segment, unless its bytes are not the form of a text. -/
def decode? (s : Bytes) : Option String :=
  Utf8.decode? (unescape s)

end MetricRelay.Percent
