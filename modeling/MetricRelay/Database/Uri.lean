import MetricRelay.Text.Percent
import MetricRelay.Text.Split

/-!
# Addresses of files

A file may be named by an address: the scheme `file:`, a machine, which can only be this one, a
path, and parameters after a question mark.  A number sign ends the address.  Escapes are replaced
only after the address is cut into its parts, and a zero byte ends the part that it is in.

Main definitions:

- `FileUri`: the path and the parameters of an address.
- `FileUri.parse?`: the address that some bytes are, after the scheme.
- `FileUri.readParameters`: the parameters in a text.
-/

namespace MetricRelay

open Utf8 (Bytes)

/-- The address of a file. -/
structure FileUri where
  path : Bytes
  parameters : List (Bytes × Bytes)
  deriving DecidableEq

namespace FileUri

/-- What an address of a file starts with. -/
def scheme : Bytes := Utf8.encode "file:"

/-- What a part of an address stands for. -/
def unescape (part : Bytes) : Bytes := (Percent.unescape part).takeWhile (· ≠ 0)

/-- The parameters in a text, each with its value; the ones without a name do not count. -/
def readParameters (s : Bytes) : List (Bytes × Bytes) :=
  (Text.splitAt '&'.toUInt8 s).filterMap fun part =>
    let (name, value) := Text.cutAt '='.toUInt8 part
    if (unescape name).isEmpty then none else some (unescape name, unescape (value.getD []))

/-- What follows the machine of an address, if that is this one. -/
def afterMachine? (s : Bytes) : Option Bytes :=
  let slash := '/'.toUInt8
  if [slash, slash].isPrefixOf s then
    let machine := (s.drop 2).takeWhile (· ≠ slash)
    if machine = [] ∨ machine = Utf8.encode "localhost" then some (s.drop (2 + machine.length))
    else none
  else some s

/-- The path and the parameters of the bytes before a number sign. -/
def ofBytes (s : Bytes) : FileUri :=
  let (path, parameters) := Text.cutAt '?'.toUInt8 (s.takeWhile (· ≠ '#'.toUInt8))
  ⟨unescape path, (parameters.map readParameters).getD []⟩

/-- The address that follows the scheme. -/
def parse? (s : Bytes) : Option FileUri := (afterMachine? s).map ofBytes

/-! ## Parameters -/

/-- The value of the first parameter of a name. -/
def first? (u : FileUri) (name : String) : Option Bytes :=
  u.parameters.lookup (Utf8.encode name)

/-- The value of the last parameter of a name. -/
def last? (u : FileUri) (name : String) : Option Bytes :=
  u.parameters.reverse.lookup (Utf8.encode name)

end FileUri

end MetricRelay
