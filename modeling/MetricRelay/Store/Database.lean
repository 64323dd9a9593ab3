import MetricRelay.Database.Companion

/-!
# The store in a database

Every change of a database is made as a whole or not at all.  A database is opened by its name, and
made if it is missing.  While it is open, it keeps its rows also when its file is removed, but then
it cannot be changed any more.

Main definitions:

- `Database` and `Database.connect`.
- `Database.rows`, `Database.read` and `Database.put`: its content.
- `Database.takeIn`: the rows after updates that are not kept yet.
- `Database.add`, `get`, `snapshot`, `restore`, `ping`.
- `Database.writeRow`: a row that is written by someone else.
-/

namespace MetricRelay

open DatabaseName (failure)

/-- An open database: the number of its table, and its file if it is in one. -/
structure Database where
  number : Nat
  file : Option DatabaseFile
  deriving DecidableEq

namespace Database

/-! ## Opening -/

/-- Open the database in a file.  An empty file is made if there is none, and a database is made in
a file without content; a single byte is none. -/
def openFile (disk : Disk) (f : DatabaseFile) (create : Bool) : Outcome Database × Disk :=
  let unable : Outcome Database := .error (failure "unable to open database file")
  let makeIn (disk : Disk) : Outcome Database × Disk :=
    match f.checkNew disk with
    | .error e => (.error e, disk)
    | .ok () =>
      let (number, disk) := f.make disk
      (.ok ⟨number, some f⟩, disk)
  if f.place = [] || disk.entryAt f.place.dropLast ≠ some .directory then (unable, disk)
  else
    match disk.entryAt f.place with
    | none => if create then makeIn (disk.put f.place (.file [])) else (unable, disk)
    | some .directory => (unable, disk)
    | some (.file content) =>
      if content.length ≤ 1 then makeIn disk
      else (.error (failure "file is not a database"), disk)
    | some (.database number) =>
      match f.checkRead disk with
      | .error e => (.error e, disk)
      | .ok () => (.ok ⟨number, some f⟩, f.afterRead disk)

/-- Open the database at a location.  One that is kept for a single connection is no use to
several. -/
def openAt (disk : Disk) (single : Bool) : Location → Outcome Database × Disk
  | .alone =>
    if single then
      let (number, disk) := disk.addTable
      (.ok ⟨number, none⟩, disk)
    else (.error (failure "no such table: metrics"), disk)
  | .shared name =>
    match disk.shared.lookup name with
    | some number => (.ok ⟨number, none⟩, disk)
    | none =>
      let (number, disk) := disk.addTable
      (.ok ⟨number, none⟩, { disk with shared := (name, number) :: disk.shared })
  | .file system place create => openFile disk ⟨system, place⟩ create

/-- Open the database of a name.  Where several connections use it, each of them looks for it anew,
and so the ones after the first may fail to find what the first has made. -/
def connect (disk : Disk) (name : String) : Outcome Database × Disk :=
  match DatabaseName.parse disk.tables.length name >>= DatabaseName.opening with
  | .error e => (.error e, disk)
  | .ok opening =>
    match opening.location disk with
    | .error e => (.error e, disk)
    | .ok location =>
      let single := DatabaseName.isSingle name
      let (result, disk) := openAt disk single location
      (do
        let d ← result
        if !single then discard (opening.location disk)
        return d, disk)

/-! ## Content -/

/-- The rows of a database. -/
def rows (d : Database) (disk : Disk) : Outcome (List TableRow) := do
  if let some f := d.file then f.checkRead disk
  match disk.table? d.number with
  | some rows => .ok rows
  | none => .error (failure "file is not a database")

/-- Read the rows of a database. -/
def read (d : Database) (disk : Disk) : Outcome (List TableRow) × Disk :=
  match d.rows disk, d.file with
  | .ok rows, some f => (.ok rows, f.afterRead disk)
  | result, _ => (result, disk)

/-- Whether a database can be changed. -/
def checkWrite (d : Database) (disk : Disk) : Outcome Unit := do
  discard (d.rows disk)
  if let some f := d.file then f.checkWrite disk d.number

/-- Replace the rows of a database. -/
def put (d : Database) (disk : Disk) (rows : List TableRow) : Outcome Unit × Disk :=
  match d.checkWrite disk with
  | .error e => (.error e, disk)
  | .ok () =>
    let disk := match d.file with
      | some f => f.afterWrite disk
      | none => disk
    (.ok (), disk.setTable d.number rows)

/-! ## The store -/

/-- Take updates in, one after the other.  Each is written before the next is looked at, so a
database that cannot be changed refuses the first that would be. -/
def takeIn (d : Database) (disk : Disk) :
    List Metric → List TableRow → Outcome (List Metric × List TableRow)
  | [], rows => .ok ([], rows)
  | m :: ms, rows => do
    let (next, rows) ← TableRow.form.merge m rows
    d.checkWrite disk
    let (nexts, rows) ← takeIn d disk ms rows
    return (next :: nexts, rows)

/-- Add updates to the rows, all of them or none.  Where there are none, nothing is looked at. -/
def add (d : Database) (disk : Disk) (ms : List Metric) : Outcome (List Metric) × Disk :=
  if ms = [] then (.ok [], disk)
  else
    let (found, disk) := d.read disk
    match found >>= d.takeIn disk ms with
    | .error e => (.error e, disk)
    | .ok (answers, rows) =>
      let (result, disk) := d.put disk rows
      (result.map fun _ => answers, disk)

/-- The metric of a key. -/
def get (d : Database) (disk : Disk) (key : Key) : Outcome Metric × Disk :=
  let (found, disk) := d.read disk
  (found >>= TableRow.form.get key, disk)

/-- The snapshot of the rows, each of which has to have a value. -/
def snapshot (d : Database) (disk : Disk) : Outcome Snapshot × Disk :=
  let (found, disk) := d.read disk
  (found >>= TableRow.snapshot, disk)

/-- Replace the rows by those of a snapshot. -/
def restore (d : Database) (disk : Disk) (s : Snapshot) : Outcome Unit × Disk :=
  match TableRow.form.ofSnapshot s with
  | .error e => (.error e, disk)
  | .ok rows => d.put disk rows

/-- Look whether the database answers.  It does as long as it is open, whatever is in it. -/
def ping (_ : Database) : Outcome Unit := .ok ()

/-! ## Others -/

/-- Write a row through a connection of its own, which is closed then: what is only in memory and
open nowhere else is gone with it. -/
def writeRow (disk : Disk) (name : String) (row : TableRow) : Disk :=
  match connect disk name with
  | (.error _, disk) => disk
  | (.ok d, opened) =>
    match d.rows opened with
    | .error _ => { opened with shared := disk.shared }
    | .ok rows => { (d.put opened (row.write rows)).2 with shared := disk.shared }

end Database

end MetricRelay
