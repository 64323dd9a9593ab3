import MetricRelay.Disk.Basic
import MetricRelay.Store.Record

/-!
# The store in a file

A metrics file is read anew for every call and written as a whole: first under another name beside
it, which then replaces it.  So a write that fails leaves the file as it was.

Main definitions:

- `MetricsFile`: the path of a metrics file.
- `MetricsFile.read`, `MetricsFile.write`: its records.
- `MetricsFile.add`, `get`, `snapshot`, `restore`, `ping`.
-/

namespace MetricRelay

/-- The path of a metrics file. -/
structure MetricsFile where
  path : String
  deriving DecidableEq

namespace MetricsFile

/-- The name under which a file is written first. -/
def draftPath (f : MetricsFile) : String := f.path ++ ".tmp"

/-- A failure of the disk. -/
def failed (what : String) (fault : DiskFault) : Failure :=
  .storage (what ++ " failed: " ++ fault.message)

/-- The records in a file; a file that is missing has none. -/
def read (f : MetricsFile) (disk : Disk) : Outcome (List StoredRecord) :=
  let corrupt : Outcome (List StoredRecord) :=
    .error (.storage ("corrupt metrics file " ++ f.path ++ ": not a list of records"))
  match disk.look f.path with
  | .error .missing => .ok []
  | .error fault => .error (failed ("read " ++ f.path) fault)
  | .ok .directory => .error (failed ("read " ++ f.path) .isDirectory)
  | .ok (.database _) => corrupt
  | .ok (.file content) =>
    match StoredRecord.readFile? content with
    | some rs => .ok rs
    | none => corrupt

/-- Replace the records in a file. -/
def write (f : MetricsFile) (disk : Disk) (rs : List StoredRecord) : Outcome Unit × Disk :=
  match disk.write f.draftPath (StoredRecord.file rs) with
  | .error fault => (.error (failed ("write " ++ f.draftPath) fault), disk)
  | .ok disk =>
    match disk.rename f.draftPath f.path with
    | .error fault => (.error (failed ("rename to " ++ f.path) fault), disk)
    | .ok disk => (.ok (), disk)

/-- Add updates to the records in a file, all of them or none. -/
def add (f : MetricsFile) (disk : Disk) (ms : List Metric) : Outcome (List Metric) × Disk :=
  match f.read disk with
  | .error e => (.error e, disk)
  | .ok rs =>
    match StoredRecord.form.mergeAll ms rs with
    | .error e => (.error e, disk)
    | .ok (answers, rs) =>
      let (result, disk) := f.write disk rs
      (result.map fun _ => answers, disk)

/-- The metric of a key. -/
def get (f : MetricsFile) (disk : Disk) (key : Key) : Outcome Metric := do
  StoredRecord.form.get key (← f.read disk)

/-- The records as a snapshot, whatever they stand for. -/
def snapshot (f : MetricsFile) (disk : Disk) : Outcome Snapshot :=
  (f.read disk).map StoredRecord.snapshot

/-- Replace the records by those of a snapshot. -/
def restore (f : MetricsFile) (disk : Disk) (s : Snapshot) : Outcome Unit × Disk :=
  match StoredRecord.form.ofSnapshot s with
  | .error e => (.error e, disk)
  | .ok rs => f.write disk rs

/-- Look whether there is a directory for the file. -/
def ping (f : MetricsFile) (disk : Disk) : Outcome Unit :=
  let directory := Path.directoryOf f.path
  match disk.look directory with
  | .ok .directory => .ok ()
  | .ok _ => .error (.storage (directory ++ " is not a directory"))
  | .error fault => .error (.storage ("metrics dir " ++ directory ++ ": " ++ fault.message))

end MetricsFile

end MetricRelay
