import MetricRelay.Database.Uri
import MetricRelay.Failure

/-!
# Names of databases

A database is named by a text: a scheme, which may be left out, what its file is called, and
settings after a question mark.  The name `:memory:` stands for a database of its own in memory.

Main definitions:

- `DatabaseName` and `DatabaseName.parse`: what the name of a database says.
- `DatabaseName.uri?`: the address by which its file is opened, if it has one.
- `DatabaseName.isSingle`: whether the database is used through one connection only.
-/

namespace MetricRelay

open Utf8 (Bytes)

/-- What the name of a database says. -/
structure DatabaseName where
  /-- The path of the file, or its address. -/
  file : Bytes
  memory : Bool
  shared : Bool
  readOnly : Bool
  immutable : Bool
  /-- The way in which files are reached, if one is asked for. -/
  system : Option Bytes
  deriving DecidableEq

namespace DatabaseName

/-- A failure of a database. -/
def failure (why : String) : Failure := .storage ("database: " ++ why)

/-- Drop a text from the start of another one, as often as it stands there. -/
def dropAll (start : List Char) (s : List Char) : List Char :=
  if _h : start ≠ [] ∧ start.isPrefixOf s then dropAll start (s.drop start.length) else s
termination_by s.length
decreasing_by
  have hlen := (List.isPrefixOf_iff_prefix.1 _h.2).length_le
  have hpos : 0 < start.length := List.length_pos_iff.2 _h.1
  simp only [List.length_drop]
  omega

/-! ## Settings -/

/-- What a part of a setting stands for: a plus sign is a space. -/
def unescape (part : Bytes) : Bytes :=
  Percent.unescape (part.map fun b => if b = '+'.toUInt8 then ' '.toUInt8 else b)

/-- The settings after the question mark: keys with values, and ampersands between them. -/
def settings (s : Bytes) : List (Bytes × Bytes) :=
  ((Text.splitAt '&'.toUInt8 s).filter (!·.isEmpty)).map fun part =>
    let (key, value) := Text.cutAt '='.toUInt8 part
    (unescape key, unescape (value.getD []))

/-- What one setting says. -/
def set (n : DatabaseName) (key value : Bytes) : Outcome DatabaseName :=
  match Utf8.decode? key, Utf8.decode? value with
  | some "mode", some "ro" => .ok { n with readOnly := true }
  | some "mode", some "rw" => .ok n
  | some "mode", some "rwc" => .ok n
  | some "mode", some "memory" => .ok { n with memory := true, shared := true }
  | some "cache", some "private" => .ok { n with shared := false }
  | some "cache", some "shared" => .ok { n with shared := true }
  | some "immutable", some "true" => .ok { n with immutable := true }
  | some "immutable", some "1" => .ok { n with immutable := true }
  | some "immutable", some "false" => .ok { n with immutable := false }
  | some "immutable", some "0" => .ok { n with immutable := false }
  | some "vfs", _ => .ok { n with system := some value }
  | _, _ => .error (failure "a setting that is not known, or has no such value")

/-! ## Names -/

/-- A database in memory that nobody else can name: its number is that of no other one. -/
def ownMemory (number : Nat) : DatabaseName :=
  { file := FileUri.scheme ++ Utf8.encode ("memory-" ++ natText number)
    memory := true
    shared := true
    readOnly := false
    immutable := false
    system := none }

/-- A database whose file is called by a text, in which escapes are replaced. -/
def ofPath (path : List Char) : Outcome DatabaseName :=
  match Percent.decode? (Utf8.encodeChars path) with
  | some path => .ok ⟨Utf8.encode path, false, false, false, false, none⟩
  | none => .error (failure "a path that is no text")

/-- What the name of a database says.  A number that is not used yet tells databases in memory
apart. -/
def parse (unused : Nat) (name : String) : Outcome DatabaseName := do
  let s := dropAll "sqlite:".toList (dropAll "sqlite://".toList name.toList)
  let (path, rest) := Text.cutAt '?' s
  let start ← if path = ":memory:".toList then .ok (ownMemory unused) else ofPath path
  (settings (Utf8.encodeChars (rest.getD []))).foldlM (fun n x => n.set x.1 x.2) start

/-- A database whose name speaks of memory is used through a single connection.  Any other one is
used through several, each of which has to find the same content. -/
def isSingle (name : String) : Bool := Text.holds ":memory:".toList name.toList

/-! ## Addresses -/

/-- The settings that are told by the parameters of an address. -/
def parameters (n : DatabaseName) : Bytes :=
  let immutable := if n.immutable then [Utf8.encode "immutable=true"] else []
  let system := n.system.map fun s => Utf8.encode "vfs=" ++ s
  ['&'.toUInt8].intercalate (immutable ++ system.toList)

/-- The address by which a file is opened.  A file is given by its address if its name starts like
one, or if some setting is told by the parameters of an address. -/
def uri? (n : DatabaseName) : Outcome (Option FileUri) :=
  if n.immutable || n.system.isSome then
    if n.parameters.contains 0 then .error (failure "a setting with a zero byte")
    else
      let u := FileUri.ofBytes ('?'.toUInt8 :: n.parameters)
      .ok (some { u with path := n.file.takeWhile (· ≠ 0) })
  else if n.file.contains 0 then .error (failure "a path with a zero byte")
  else if FileUri.scheme.isPrefixOf n.file then
    match FileUri.parse? (n.file.drop FileUri.scheme.length) with
    | some u => .ok (some u)
    | none => .error (failure "an address at another machine")
  else .ok none

end DatabaseName

end MetricRelay
