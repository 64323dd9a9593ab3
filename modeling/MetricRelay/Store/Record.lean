import MetricRelay.Json.Record
import MetricRelay.Json.Writer
import MetricRelay.Store.Rows

/-!
# Records of a metrics file

A metrics file is a JSON list of records, each with the type, the name and the text of the value of
a metric.  Records that others wrote are kept as they are, even if they stand for no metric.

Main definitions:

- `StoredRecord` and its form as a row.
- `StoredRecord.file`: the file that holds some records, indented by two spaces.
- `StoredRecord.readFile?`: the records in a file.
-/

namespace MetricRelay

open Utf8 (Bytes)

/-- A record of a metrics file. -/
structure StoredRecord where
  type : String
  name : String
  value : String
  deriving DecidableEq

namespace StoredRecord

/-- The record of a metric. -/
def ofMetric (m : Metric) : StoredRecord := ⟨m.kind.name, m.name, m.value.canonical⟩

/-- Whether a record is known by a key. -/
def isOf (key : Key) (r : StoredRecord) : Bool := r.type = key.kind.name && r.name = key.name

/-- Records as rows: the text of a value is read when it is needed. -/
def form : RowForm StoredRecord :=
  { isOf := isOf
    value := fun key r => Value.parse key.kind r.value
    ofMetric := ofMetric }

/-! ## Writing -/

/-- A line end and some spaces. -/
def newLine (indent : Nat) : List Char := '\n' :: List.replicate indent ' '

/-- A member on a line of its own. -/
def line (key value : String) : List Char :=
  newLine 4 ++ Json.quote key ++ ": ".toList ++ Json.quote value

/-- A record, from its line on. -/
def json (r : StoredRecord) : List Char :=
  newLine 2 ++ ['\x7b'] ++
    Json.separated [','] [line "type" r.type, line "name" r.name, line "value" r.value] ++
    newLine 2 ++ ['\x7d']

/-- The text of a file. -/
def fileChars : List StoredRecord → List Char
  | [] => ['[', ']']
  | rs => '[' :: Json.separated [','] (rs.map json) ++ newLine 0 ++ [']']

/-- The file that holds some records. -/
def file (rs : List StoredRecord) : Bytes := Utf8.encodeChars (fileChars rs)

/-! ## Reading -/

/-- The record of three fields. -/
def ofRecord? (r : Json.Record) : Option StoredRecord := do
  match ← r.fields? ["type", "name", "value"] 3 with
  | [type, name, value] =>
    return ⟨← Json.Field.text? type, ← Json.Field.text? name, ← Json.Field.text? value⟩
  | _ => none

/-- A record and the bytes after it. -/
def read? (s : Bytes) : Option (StoredRecord × Bytes) :=
  match Json.readRecord? s with
  | some (r, t) => (ofRecord? r).map (·, t)
  | none => none

/-- The records in a file.  A file without content has none. -/
def readFile? (content : Bytes) : Option (List StoredRecord) :=
  if content.isEmpty then some [] else Json.whole? (Json.readList? read? content)

/-! ## Snapshots -/

/-- The snapshot of some records; of two with the same type and name the later one counts. -/
def snapshot (rs : List StoredRecord) : Snapshot :=
  rs.foldl (fun s r => s.put r.type r.name r.value) .empty

end StoredRecord

end MetricRelay
