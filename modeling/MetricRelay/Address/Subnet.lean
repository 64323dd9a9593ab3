import MetricRelay.Address.Ip
import MetricRelay.Failure
import MetricRelay.Text.Blank

/-!
# Subnets

A subnet is all addresses of one family that start with the same bits.  It is given by one of its
addresses and by how many bits count; the other bits of that address do not matter.

Main definitions:

- `Block`: the first bits of an address, the others cleared.
- `Subnet`, `Subnet.parse`, `Subnet.contains`, `Subnet.admits`.
-/

namespace MetricRelay

/-- A mask of the first `length` bits. -/
def firstBits (w length : Nat) : BitVec w := BitVec.allOnes w <<< (w - length)

/-- The addresses of width `w` that start with the first `length` bits of `network`. -/
structure Block (w : Nat) where
  network : BitVec w
  length : Nat
  length_le : length ≤ w
  masked : network &&& firstBits w length = network
  deriving DecidableEq

namespace Block

variable {w : Nat}

/-- The block of an address. -/
def ofAddress (a : BitVec w) (length : Nat) (h : length ≤ w) : Block w :=
  ⟨a &&& firstBits w length, length, h, by rw [BitVec.and_assoc, BitVec.and_self]⟩

/-- Whether an address starts with the bits of the block. -/
def contains (b : Block w) (a : BitVec w) : Bool :=
  a &&& firstBits w b.length == b.network

end Block

/-- A subnet of either family. -/
inductive Subnet where
  | v4 (b : Block 32)
  | v6 (b : Block 128)
  deriving DecidableEq

namespace Subnet

/-- A failure to understand the text of a subnet. -/
def malformed (raw why : String) : Failure :=
  .badRequest ("invalid trusted_subnet " ++ Text.quoted raw ++ ": " ++ why)

/-- How many bits count: an optional plus sign and a number below 256. -/
def readLength? (s : List Char) : Option Nat :=
  let digits := match s with
    | '+' :: r => r
    | r => r
  (readNat? digits).filter (· < 256)

/-- The block of an address, unless it has fewer bits than should count. -/
def block {w : Nat} (raw : String) (a : BitVec w) (length : Nat) : Outcome (Block w) :=
  if h : length ≤ w then .ok (Block.ofAddress a length h)
  else .error (malformed raw ("prefix length above " ++ natText w))

/-- The subnet of a text: an address, a slash and how many bits count, with blanks around. -/
def parse (raw : String) : Outcome Subnet :=
  let s := Text.trim raw.toList
  match s.dropWhile (· ≠ '/') with
  | [] => .error (malformed raw "expected addr/prefix")
  | _ :: bits =>
    match Ip.parse? (String.ofList (s.takeWhile (· ≠ '/'))) with
    | none => .error (malformed raw "bad address")
    | some ip =>
      match readLength? bits with
      | none => .error (malformed raw "bad prefix length")
      | some length =>
        match ip with
        | .v4 a => (block raw a length).map v4
        | .v6 a => (block raw a length).map v6

/-- Whether an address lies in the subnet.  An address of the newer family that only wraps one of
the older family counts as that one for a subnet of the older family. -/
def contains : Subnet → Ip → Bool
  | v4 b, .v4 a => b.contains a
  | v4 b, .v6 a =>
    match Ip.unmapped? a with
    | some a => b.contains a
    | none => false
  | v6 b, .v6 a => b.contains a
  | v6 _, .v4 _ => false

/-- Whether a text is an address in the subnet; blanks around it do not count. -/
def admits (s : Subnet) (raw : String) : Bool :=
  match Ip.parse? (String.ofList (Text.trim raw.toList)) with
  | some ip => s.contains ip
  | none => false

/-- How a subnet looks when it is inspected. -/
def inspected : Subnet → String
  | v4 b =>
    "V4 \x7b net: " ++ natText b.network.toNat ++ ", prefix: " ++ natText b.length ++ " \x7d"
  | v6 b =>
    "V6 \x7b net: " ++ natText b.network.toNat ++ ", prefix: " ++ natText b.length ++ " \x7d"

end Subnet

end MetricRelay
