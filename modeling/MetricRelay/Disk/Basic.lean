import MetricRelay.Disk.Path
import MetricRelay.Store.Table

/-!
# Disks

A disk is a tree of directories with files and databases in it.  It is kept as the list of its
entries, each with the names that lead to it.  The rows of a database are kept apart, under a
number: whoever has a database open keeps it also when its name is gone.  A change that fails
changes nothing.

Main definitions:

- `Disk`, `Entry` and `DiskFault`.
- `Disk.walk` and `Disk.look`: where a path leads, and what is there.
- `Disk.write`, `Disk.rename`, `Disk.makeDirectory`, `Disk.remove`: changes of a disk.
- `Disk.list`: the names in a directory.
- `Disk.table?`, `Disk.setTable`, `Disk.addTable`: the rows of databases.

Main results:

- `Disk.entryAt_put`: after a change its place holds the new entry and every other place what it
  held.
-/

namespace MetricRelay

open Utf8 (Bytes)

/-- The names that lead from the root to a place. -/
abbrev Place := List String

/-- What a name in a directory stands for; a database is there by its number. -/
inductive Entry where
  | directory
  | file (content : Bytes)
  | database (number : Nat)
  deriving DecidableEq

/-- Why a path cannot be used. -/
inductive DiskFault where
  | missing
  | notDirectory
  | isDirectory
  | tooLong
  | zeroByte
  deriving DecidableEq

/-- The wording of a fault. -/
def DiskFault.message : DiskFault → String
  | missing => "No such file or directory (os error 2)"
  | notDirectory => "Not a directory (os error 20)"
  | isDirectory => "Is a directory (os error 21)"
  | tooLong => "File name too long (os error 36)"
  | zeroByte => "file name contained an unexpected NUL byte"

/-- The name of a database in memory, among the names of one kind. -/
structure MemoryName where
  kind : String
  name : Bytes
  deriving DecidableEq

/-- A tree of entries, the directory in which paths start, the rows of databases, and the numbers of
those that are in memory under a name.  A table is no more when something was written over it. -/
structure Disk where
  entries : List (Place × Entry)
  current : Place
  tables : List (Option (List TableRow))
  shared : List (MemoryName × Nat)

namespace Disk

/-- A disk with one directory, which is the current one. -/
def withDirectory (names : Place) : Disk :=
  ⟨(List.range names.length).map fun i => (names.take (i + 1), .directory), names, [], []⟩

/-! ## Places -/

/-- The entry at a place; the root is a directory. -/
def entryAt (d : Disk) (place : Place) : Option Entry :=
  if place = [] then some .directory else d.entries.lookup place

/-- Have an entry at a place. -/
def putIn (place : Place) (e : Entry) : List (Place × Entry) → List (Place × Entry)
  | [] => [(place, e)]
  | (p, x) :: r => if p = place then (place, e) :: r else (p, x) :: putIn place e r

/-- Have an entry at a place. -/
def put (d : Disk) (place : Place) (e : Entry) : Disk :=
  { d with entries := putIn place e d.entries }

/-- Have nothing at a place or behind it. -/
def clear (d : Disk) (place : Place) : Disk :=
  { d with entries := d.entries.filter fun x => !place.isPrefixOf x.1 }

/-- What is put in at a place is found there, and all else is found as before. -/
theorem lookup_putIn (place p : Place) (e : Entry) (l : List (Place × Entry)) :
    (putIn place e l).lookup p = if p = place then some e else l.lookup p := by
  induction l with
  | nil =>
    by_cases h : p = place
    · simp [putIn, h]
    · have : (p == place) = false := by simp [h]
      simp [putIn, List.lookup_cons, h, this]
  | cons x r ih =>
    obtain ⟨q, y⟩ := x
    unfold putIn
    by_cases hq : q = place
    · subst hq
      by_cases h : p = q
      · simp [h]
      · have : (p == q) = false := by simp [h]
        simp [List.lookup_cons, h, this]
    · rw [if_neg hq]
      by_cases h : p = q
      · subst h
        simp [hq]
      · have : (p == q) = false := by simp [h]
        simp only [List.lookup_cons, this, ih]

/-- After a change its place holds the new entry, and every other place what it held. -/
theorem entryAt_put (d : Disk) (place p : Place) (e : Entry) (h : place ≠ []) :
    (d.put place e).entryAt p = if p = place then some e else d.entryAt p := by
  unfold entryAt put
  simp only [lookup_putIn]
  by_cases hp : p = []
  · have : [] ≠ place := fun e => h e.symm
    simp [hp, this]
  · simp [hp]

/-! ## Paths -/

/-- Follow one part of a path from a place, which has to be a directory. -/
def step (d : Disk) (place : Place) (part : String) : Except DiskFault Place :=
  match d.entryAt place with
  | none => .error .missing
  | some .directory =>
    if Path.greatestName < Path.size part then .error .tooLong
    else .ok (Path.follow place part)
  | some _ => .error .notDirectory

/-- Where a path starts, unless it cannot be one. -/
def start (d : Disk) (path : String) : Except DiskFault Place :=
  if path = "" then .error .missing
  else if path.toList.contains '\x00' then .error .zeroByte
  else if Path.greatestPath < Path.size path then .error .tooLong
  else .ok (if Path.isAbsolute path then [] else d.current)

/-- Where a path leads.  All of it but the last name has to be there. -/
def walk (d : Disk) (path : String) : Except DiskFault Place := do
  (Path.parts path).foldlM d.step (← d.start path)

/-- What is where a path leads. -/
def look (d : Disk) (path : String) : Except DiskFault Entry := do
  match d.entryAt (← d.walk path) with
  | some e => .ok e
  | none => .error .missing

/-- The place for a file under a path: a path with a name at its end, which is no directory's. -/
def target (d : Disk) (path : String) : Except DiskFault Place := do
  let place ← d.walk path
  if ((Path.parts path).getLast?.all Path.isStep) || d.entryAt place = some .directory then
    .error .isDirectory
  else .ok place

/-! ## Tables -/

/-- The rows of a database, unless something was written over it. -/
def table? (d : Disk) (number : Nat) : Option (List TableRow) := d.tables[number]?.join

/-- Replace the rows of a database. -/
def setTable (d : Disk) (number : Nat) (rows : List TableRow) : Disk :=
  { d with tables := d.tables.set number (some rows) }

/-- The number of a new database without rows. -/
def addTable (d : Disk) : Nat × Disk :=
  (d.tables.length, { d with tables := d.tables ++ [some []] })

/-- What is at a place is written over; if it is a database, that is none any more. -/
def dropTableAt (d : Disk) (place : Place) : Disk :=
  match d.entryAt place with
  | some (.database number) => { d with tables := d.tables.set number none }
  | _ => d

/-! ## Changes -/

/-- Replace the content of a file, or have a new one. -/
def write (d : Disk) (path : String) (content : Bytes) : Except DiskFault Disk := do
  let place ← d.target path
  return (d.dropTableAt place).put place (.file content)

/-- Have a file under another path, where it replaces what is there unless that is a directory. -/
def rename (d : Disk) (source destination : String) : Except DiskFault Disk := do
  let old ← d.walk source
  let new ← d.target destination
  match d.entryAt old with
  | none => .error .missing
  | some .directory => .error .notDirectory
  | some e => .ok ((d.clear old).put new e)

/-- Follow the parts of a path and have a directory wherever nothing is, up to where something is in
the way. -/
def makeAlong (d : Disk) (place : Place) : List String → Disk
  | [] => d
  | part :: parts =>
    match d.step place part with
    | .error _ => d
    | .ok next =>
      match d.entryAt next with
      | none => (d.put next .directory).makeAlong next parts
      | some _ => d.makeAlong next parts

/-- Have a directory under a path, and the directories above it. -/
def makeDirectory (d : Disk) (path : String) : Disk :=
  match d.start path with
  | .error _ => d
  | .ok place => d.makeAlong place (Path.parts path)

/-- Have nothing under a path. -/
def remove (d : Disk) (path : String) : Disk :=
  match d.walk path with
  | .error _ => d
  | .ok place => if place = [] then d else d.clear place

/-- The names in a directory, in the order of their bytes. -/
def list (d : Disk) (path : String) : List String :=
  match d.walk path with
  | .error _ => []
  | .ok place =>
    let names := d.entries.filterMap fun x =>
      if x.1.dropLast = place && x.1 ≠ [] then x.1.getLast? else none
    names.mergeSort (· ≤ ·)

end Disk

end MetricRelay
