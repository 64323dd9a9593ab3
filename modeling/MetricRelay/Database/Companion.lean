import MetricRelay.Database.Location

/-!
# Files beside a database

Beside the file of a database there may be others, whose names go on after its name: a journal that
is written before every change, a log of changes, and a lock.  What someone else left there can keep
a database from being read or written.

Main definitions:

- `DatabaseFile`: a file with a database, and how it is reached.
- `DatabaseFile.checkRead`, `checkWrite` and `checkNew`: whether a database can be read, changed or
  made there.
- `DatabaseFile.afterRead`, `afterWrite` and `make`: the disk after that.
-/

namespace MetricRelay

open DatabaseName (failure)

/-- A file with a database, and how it is reached. -/
structure DatabaseFile where
  system : System
  place : Place
  deriving DecidableEq

namespace DatabaseFile

/-! ## Companions -/

/-- The place of a file beside it. -/
def beside (f : DatabaseFile) (ending : String) : Place :=
  f.place.dropLast ++ [f.place.getLast?.getD "" ++ ending]

/-- The place of the journal. -/
def journal (f : DatabaseFile) : Place := f.beside "-journal"

/-- The place of the log of changes. -/
def log (f : DatabaseFile) : Place := f.beside "-wal"

/-- The place of the index of the log. -/
def logIndex (f : DatabaseFile) : Place := f.beside "-shm"

/-- The place of the lock, if there is a file for it. -/
def lock (f : DatabaseFile) : Place := f.beside ".lock"

/-- Whether a directory is at a place. -/
def isDirectory (disk : Disk) (place : Place) : Bool := disk.entryAt place = some .directory

/-- Whether something other than an empty file is at a place. -/
def isFilled (disk : Disk) (place : Place) : Bool :=
  match disk.entryAt place with
  | none | some (.file []) => false
  | some _ => true

/-- Whether a file is at a place whose first byte is not zero. -/
def isMarked (disk : Disk) (place : Place) : Bool :=
  match disk.entryAt place with
  | some (.file (b :: _)) => b ≠ 0
  | some (.database _) => true
  | _ => false

/-- Delete a file; a directory is left. -/
def delete (place : Place) (disk : Disk) : Disk :=
  if isDirectory disk place then disk else disk.clear place

/-! ## Checks -/

/-- Whether the log of changes can be used with a system. -/
def logWorks (f : DatabaseFile) (disk : Disk) : Bool :=
  match f.system with
  | .usual => !isDirectory disk f.log && !isDirectory disk f.logIndex
  | .exclusive => !isDirectory disk f.log
  | .lockFile | .lockless | .inMemory => false

/-- Whether the lock can be taken. -/
def checkLock (f : DatabaseFile) (disk : Disk) : Outcome Unit :=
  if f.system = .lockFile && (disk.entryAt f.lock).isSome then
    .error (failure "database is locked")
  else .ok ()

/-- Whether a database can be read. -/
def checkRead (f : DatabaseFile) (disk : Disk) : Outcome Unit := do
  f.checkLock disk
  if isFilled disk f.log && !f.logWorks disk then throw (failure "unable to open database file")
  if isDirectory disk f.journal && f.system ≠ .lockFile then throw (failure "disk I/O error")

/-- Whether the name of a file still leads to a database: how much of that is looked at depends on
the system. -/
def isKept (f : DatabaseFile) (disk : Disk) (number : Nat) : Bool :=
  match f.system with
  | .usual | .exclusive => disk.entryAt f.place = some (.database number)
  | .lockFile | .lockless | .inMemory => (disk.entryAt f.place).isSome

/-- Whether a database that can be read can be changed. -/
def checkWrite (f : DatabaseFile) (disk : Disk) (number : Nat) : Outcome Unit := do
  if isDirectory disk f.journal then throw (failure "unable to open database file")
  if !f.isKept disk number then throw (failure "attempt to write a readonly database")

/-- Whether a database can be made in an empty file. -/
def checkNew (f : DatabaseFile) (disk : Disk) : Outcome Unit := do
  f.checkLock disk
  if isDirectory disk f.log || isDirectory disk f.journal then throw (failure "disk I/O error")
  if Path.greatestName < Path.size (f.journal.getLast?.getD "") then
    throw (failure "unable to open database file")

/-! ## Changes -/

/-- The disk after a database was read: a journal that was begun and not ended is gone, and a log of
changes has an index. -/
def afterRead (f : DatabaseFile) (disk : Disk) : Disk :=
  let disk :=
    if isMarked disk f.journal && f.system ≠ .lockFile then delete f.journal disk else disk
  if isFilled disk f.log && f.system = .usual && (disk.entryAt f.logIndex).isNone then
    disk.put f.logIndex (.file [])
  else disk

/-- The disk after a database was changed: its journal is gone. -/
def afterWrite (f : DatabaseFile) (disk : Disk) : Disk := delete f.journal disk

/-- Have a new database, without rows and without what was beside it. -/
def make (f : DatabaseFile) (disk : Disk) : Nat × Disk :=
  let disk := f.afterWrite disk
  let disk := if isFilled disk f.log then delete f.log disk else disk
  let (number, disk) := disk.addTable
  (number, disk.put f.place (.database number))

end DatabaseFile

end MetricRelay
