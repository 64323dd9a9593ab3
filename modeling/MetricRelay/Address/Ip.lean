import MetricRelay.Number.Decimal
import MetricRelay.Number.Literal
import MetricRelay.Text.Hex

/-!
# Internet addresses

Addresses of both families and their texts.  An address of the older family is four numbers; one
of the newer family is eight groups of digits in base sixteen, of which one run of zeros may be
left out and the last two may be written as an address of the older family.

Main definitions:

- `Ip` and `Ip.parse?`.
- `Endpoint` and `Endpoint.parse?`: an address with the number of a socket.
- `Ip.text` and `Endpoint.text`: the shortest usual forms.
-/

namespace MetricRelay

/-- An internet address. -/
inductive Ip where
  | v4 (a : BitVec 32)
  | v6 (a : BitVec 128)
  deriving DecidableEq

namespace Ip

/-- A reader of the start of a text: what it found and what is left. -/
abbrev Reader (α : Type) := List Char → Option (α × List Char)

/-- One given character. -/
def readChar (c : Char) : Reader Unit
  | [] => none
  | d :: r => if d = c then some ((), r) else none

/-- A number in base ten of one to three digits, below 256 and without leading zeros. -/
def readOctet : Reader Nat := fun s =>
  let digits := s.takeWhile isDigit
  if digits.isEmpty || 3 < digits.length || (digits.head? = some '0' && 1 < digits.length) then none
  else if 255 < digitsNat digits then none
  else some (digitsNat digits, s.dropWhile isDigit)

/-- Four numbers with points between them. -/
def readV4 : Reader (BitVec 32) := fun s => do
  let (a, s) ← readOctet s
  let (_, s) ← readChar '.' s
  let (b, s) ← readOctet s
  let (_, s) ← readChar '.' s
  let (c, s) ← readOctet s
  let (_, s) ← readChar '.' s
  let (d, s) ← readOctet s
  return (BitVec.ofNat 32 (((a * 256 + b) * 256 + c) * 256 + d), s)

/-- A digit in base sixteen. -/
def isHexDigit (c : Char) : Bool := (Hex.digitValue? c).isSome

/-- The number of a row of digits in base sixteen. -/
def hexNat (s : List Char) : Nat :=
  s.foldl (fun n c => n * 16 + (Hex.digitValue? c).getD 0) 0

/-- A group of one to four digits in base sixteen. -/
def readGroup : Reader Nat := fun s =>
  let digits := s.takeWhile isHexDigit
  if digits.isEmpty || 4 < digits.length then none
  else some (hexNat digits, s.dropWhile isHexDigit)

/-- A part after the colon that stands between parts. -/
def readAfterColon {α : Type} (first : Bool) (read : Reader α) : Reader α := fun s =>
  if first then read s
  else do
    let (_, s) ← readChar ':' s
    read s

/-- At most `limit` groups with colons between them, and whether the last two were written as an
address of the older family; this may be so when there is room for two. -/
def readGroups : Nat → Bool → List Char → (List Nat × Bool) × List Char
  | 0, _, s => (([], false), s)
  | limit + 1, first, s =>
    match if 0 < limit then readAfterColon first readV4 s else none with
    | some (a, s) => (([a.toNat / 65536, a.toNat % 65536], true), s)
    | none =>
      match readAfterColon first readGroup s with
      | some (g, s) =>
        let (x, s) := readGroups limit false s
        ((g :: x.1, x.2), s)
      | none => (([], false), s)

/-- The address of eight groups. -/
def ofGroups (groups : List Nat) : BitVec 128 :=
  BitVec.ofNat 128 (groups.foldl (fun n g => n * 65536 + g) 0)

/-- Eight groups, or fewer with a double colon for a run of zeros. -/
def readV6 : Reader (BitVec 128) := fun s =>
  let ((head, mapped), s) := readGroups 8 true s
  if head.length = 8 then some (ofGroups head, s)
  else if mapped then none
  else do
    let (_, s) ← readChar ':' s
    let (_, s) ← readChar ':' s
    let ((tail, _), s) := readGroups (7 - head.length) true s
    return (ofGroups (head ++ List.replicate (8 - head.length - tail.length) 0 ++ tail), s)

/-- The address that a text is. -/
def parse? (s : String) : Option Ip :=
  match readV4 s.toList with
  | some (a, []) => some (.v4 a)
  | _ =>
    match readV6 s.toList with
    | some (a, []) => some (.v6 a)
    | _ => none

/-- The address of the older family inside one of the newer family that only wraps it. -/
def unmapped? (a : BitVec 128) : Option (BitVec 32) :=
  if a >>> 32 = 0xffff#128 then some (a.setWidth 32) else none

/-! ## Texts -/

/-- Four numbers with points between them. -/
def v4Chars (a : BitVec 32) : List Char :=
  let n := a.toNat
  natChars (n / 16777216) ++ '.' :: natChars (n / 65536 % 256) ++
    '.' :: natChars (n / 256 % 256) ++ '.' :: natChars (n % 256)

/-- The eight groups of an address. -/
def groups (a : BitVec 128) : List Nat :=
  (List.range 8).map fun i => (a >>> (16 * (7 - i))).toNat % 65536

/-- Groups with colons between them. -/
def groupsChars : List Nat → List Char
  | [] => []
  | [g] => Nat.toDigits 16 g
  | g :: r => Nat.toDigits 16 g ++ ':' :: groupsChars r

/-- How many zeros a list starts with. -/
def zeroRun (l : List Nat) : Nat := (l.takeWhile (· = 0)).length

/-- The place and the length of the first of the longest runs of zeros. -/
def longestRun (l : List Nat) : Nat × Nat :=
  (List.range l.length).foldl
    (fun best i => if best.2 < zeroRun (l.drop i) then (i, zeroRun (l.drop i)) else best) (0, 0)

/-- The groups of an address, the longest run of at least two zeros left out; an address that only
wraps one of the older family shows that one. -/
def v6Chars (a : BitVec 128) : List Char :=
  match unmapped? a with
  | some b => "::ffff:".toList ++ v4Chars b
  | none =>
    let gs := groups a
    let run := longestRun gs
    if 1 < run.2 then
      groupsChars (gs.take run.1) ++ [':', ':'] ++ groupsChars (gs.drop (run.1 + run.2))
    else groupsChars gs

/-- The text of an address. -/
def text : Ip → String
  | v4 a => String.ofList (v4Chars a)
  | v6 a => String.ofList (v6Chars a)

end Ip

/-- An address with the number of a socket, and for the newer family a zone. -/
structure Endpoint where
  ip : Ip
  zone : Nat
  socket : Nat
  deriving DecidableEq

namespace Endpoint

/-- A non-empty row of digits for a number of at most `greatest`. -/
def readNumber (greatest : Nat) : Ip.Reader Nat := fun s =>
  let digits := s.takeWhile isDigit
  if digits.isEmpty || greatest < digitsNat digits then none
  else some (digitsNat digits, s.dropWhile isDigit)

/-- A colon and the number of a socket. -/
def readSocket : Ip.Reader Nat := fun s => do
  let (_, s) ← Ip.readChar ':' s
  readNumber 65535 s

/-- A percent sign and a zone, or nothing. -/
def readZone : Ip.Reader Nat := fun s =>
  match Ip.readChar '%' s with
  | some (_, r) =>
    match readNumber 4294967295 r with
    | some x => some x
    | none => some (0, s)
  | none => some (0, s)

/-- An address of the older family and a socket. -/
def readV4 : Ip.Reader Endpoint := fun s => do
  let (a, s) ← Ip.readV4 s
  let (socket, s) ← readSocket s
  return (⟨.v4 a, 0, socket⟩, s)

/-- An address of the newer family in brackets and a socket. -/
def readV6 : Ip.Reader Endpoint := fun s => do
  let (_, s) ← Ip.readChar '[' s
  let (a, s) ← Ip.readV6 s
  let (zone, s) ← readZone s
  let (_, s) ← Ip.readChar ']' s
  let (socket, s) ← readSocket s
  return (⟨.v6 a, zone, socket⟩, s)

/-- The address and the socket that a text is. -/
def parse? (s : String) : Option Endpoint :=
  match readV4 s.toList with
  | some (e, []) => some e
  | _ =>
    match readV6 s.toList with
    | some (e, []) => some e
    | _ => none

/-- The text of an address with the number of a socket. -/
def text (e : Endpoint) : String :=
  match e.ip with
  | .v4 _ => e.ip.text ++ ":" ++ natText e.socket
  | .v6 _ =>
    let zone := if e.zone = 0 then "" else "%" ++ natText e.zone
    "[" ++ e.ip.text ++ zone ++ "]:" ++ natText e.socket

end Endpoint

end MetricRelay
