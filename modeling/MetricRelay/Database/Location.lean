import MetricRelay.Database.Name
import MetricRelay.Disk.Basic

/-!
# Where databases are kept

What a database is called decides where it is kept: in a file, in memory under a name that several
connections share, or in memory for one connection alone.

Main definitions:

- `System`: the ways in which files are reached.
- `Opening` and `DatabaseName.opening`: how a database is opened.
- `Location` and `Opening.location`: where a database is kept.
-/

namespace MetricRelay

open Utf8 (Bytes)
open DatabaseName (failure)

/-! ## Systems -/

/-- The ways in which the files of databases are reached.  They differ in how a file is locked; the
last one keeps files in memory. -/
inductive System where
  | usual
  | exclusive
  | lockFile
  | lockless
  | inMemory
  deriving DecidableEq

namespace System

/-- The name of a way to reach files. -/
def name : System → String
  | usual => "unix"
  | exclusive => "unix-excl"
  | lockFile => "unix-dotfile"
  | lockless => "unix-none"
  | inMemory => "memdb"

/-- The system of a name. -/
def ofName? (name : Bytes) : Option System :=
  [usual, exclusive, lockFile, lockless, inMemory].find? fun s => Utf8.encode s.name = name

end System

/-! ## Openings -/

/-- What may be done with the file of a database.  Nothing is said about it where the database is in
memory. -/
inductive Access where
  | unsaid
  | read
  | write
  | create
  deriving DecidableEq

/-- Whether more is allowed by the second access than by the first. -/
def Access.isMore : Access → Access → Bool
  | unsaid, unsaid => false
  | unsaid, _ => true
  | read, write | read, create | write, create => true
  | _, _ => false

/-- How a database is opened. -/
structure Opening where
  file : Bytes
  /-- Whether the file is given by its address. -/
  isAddress : Bool
  memory : Bool
  shared : Bool
  access : Access
  immutable : Bool
  system : System
  deriving DecidableEq

namespace Opening

/-- Another access, which may not be more than the one so far; a database in memory may be opened as
a file in any way. -/
def withAccess (o : Opening) (access : Access) : Outcome Opening :=
  if o.access.isMore access && !o.memory then .error (failure "no such access is allowed")
  else .ok { o with access := access, memory := false }

/-- What one parameter of an address says; the ones that are not known do not count. -/
def set (o : Opening) (name value : Bytes) : Outcome Opening :=
  match Utf8.decode? name, Utf8.decode? value with
  | some "cache", some "shared" => .ok { o with shared := true }
  | some "cache", some "private" => .ok { o with shared := false }
  | some "cache", _ => .error (failure "no such cache")
  | some "mode", some "ro" => o.withAccess .read
  | some "mode", some "rw" => o.withAccess .write
  | some "mode", some "rwc" => o.withAccess .create
  | some "mode", some "memory" => .ok { o with access := .unsaid, memory := true }
  | some "mode", _ => .error (failure "no such access")
  | _, _ => .ok o

/-- Whether a parameter is true: a number that is not a multiple of 256, or a word for it. -/
def isTrue (value : Bytes) : Bool :=
  let s := value.map fun b => lowerAscii (Char.ofNat b.toNat)
  let n := digitsNat (s.takeWhile isDigit)
  if s.head?.any isDigit then n < 2147483648 && n % 256 ≠ 0
  else s = "on".toList || s = "yes".toList || s = "true".toList

end Opening

/-- How a name says that a database is opened. -/
def DatabaseName.opening (n : DatabaseName) : Outcome Opening := do
  let uri ← n.uri?
  let start : Opening :=
    { file := (uri.map (·.path)).getD n.file
      isAddress := uri.isSome
      memory := n.memory
      shared := n.shared
      access := if n.readOnly then .read else .create
      immutable := uri.any fun u => (u.first? "immutable").any Opening.isTrue
      system := .usual }
  let o ← ((uri.map (·.parameters)).getD []).foldlM (fun o x => o.set x.1 x.2) start
  match uri.bind (·.last? "vfs") with
  | none => return o
  | some name =>
    match System.ofName? name with
    | some system => return { o with system := system }
    | none => throw (failure "no such way to reach files")

/-! ## Locations -/

/-- Where a database is kept. -/
inductive Location where
  | alone
  | shared (name : MemoryName)
  | file (system : System) (place : Place) (create : Bool)
  deriving DecidableEq

namespace Location

/-- The most bytes that the path of the file of a database may have. -/
def greatestPath : Nat := 504

/-- A place on the way to a file: no file may stand before its end. -/
def onWay (disk : Disk) (place : Place) : Outcome Place :=
  let unable : Outcome Place := .error (failure "unable to open database file")
  if greatestPath < (place.map fun name => 1 + Path.size name).foldl (· + ·) 0 then unable
  else
    match place.foldlM disk.step [] with
    | .ok _ | .error .missing => .ok place
    | .error _ => unable

/-- The place of a file.  Its path is followed by the names in it alone, so that two points lead
back also from a directory that is not there. -/
def placeOf (disk : Disk) (path : String) : Outcome Place :=
  (Path.parts path).foldlM (fun place part => onWay disk (Path.follow place part))
    (if Path.isAbsolute path then [] else disk.current)

/-- Whether a file in memory is found again under its name. -/
def isRooted (file : Bytes) : Bool :=
  1 < file.length && file.head?.any fun b => b = '/'.toUInt8 || b = '\\'.toUInt8

/-- The most bytes that the name of a file in memory may have. -/
def greatestMemoryName : Nat := 1016

end Location

/-- Where the database of an opening is kept.  It has to be a place where it can be written. -/
def Opening.location (disk : Disk) (o : Opening) : Outcome Location :=
  let readOnly : Outcome Location := .error (failure "attempt to write a readonly database")
  let unable : Outcome Location := .error (failure "unable to open database file")
  let cached : Location := .shared ⟨o.system.name, o.file⟩
  if o.access = .read then readOnly
  else if o.file = [] then .ok .alone
  else if o.memory || o.file = Utf8.encode ":memory:" then
    .ok (if o.shared && o.isAddress then cached else .alone)
  else if o.immutable then readOnly
  else
    match o.system with
    | .inMemory =>
      if Location.greatestMemoryName < o.file.length then unable
      else if Location.isRooted o.file then .ok (.shared ⟨"file in memory", o.file⟩)
      else .ok (if o.shared then cached else .alone)
    | system =>
      match Utf8.decode? o.file with
      | none => unable
      | some path =>
        (Location.placeOf disk path).map fun place => .file system place (o.access = .create)

end MetricRelay
