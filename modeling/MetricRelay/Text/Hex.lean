import MetricRelay.Text.Utf8

/-!
# Bytes in base sixteen

A tag is written with two digits for each byte, in lower case.  Reading takes digits of either
case and refuses an odd number of digits.

Main definitions:

- `encode` and `decode?`.
-/

namespace MetricRelay.Hex

open Utf8 (Bytes)

/-- The digit for a number below sixteen. -/
def digit (n : Nat) : Char :=
  if n < 10 then Char.ofNat (0x30 + n) else Char.ofNat (0x57 + n)

/-- The number of a digit of either case. -/
def digitValue? (c : Char) : Option Nat :=
  let n := c.toNat
  if 0x30 ≤ n ∧ n ≤ 0x39 then some (n - 0x30)
  else if 0x61 ≤ n ∧ n ≤ 0x66 then some (n - 0x57)
  else if 0x41 ≤ n ∧ n ≤ 0x46 then some (n - 0x37)
  else none

/-- The two digits of a byte. -/
def encodeByte (b : UInt8) : List Char :=
  [digit (b.toNat / 16), digit (b.toNat % 16)]

/-- Two lower-case digits for each byte. -/
def encode (bytes : Bytes) : String :=
  String.ofList (bytes.flatMap encodeByte)

/-- The bytes of a list of digits. -/
def decodeChars? : List Char → Option Bytes
  | [] => some []
  | [_] => none
  | a :: b :: r => do
    let high ← digitValue? a
    let low ← digitValue? b
    let rest ← decodeChars? r
    return (high * 16 + low).toUInt8 :: rest

/-- The bytes of a text of digits. -/
def decode? (s : String) : Option Bytes :=
  decodeChars? s.toList

end MetricRelay.Hex
