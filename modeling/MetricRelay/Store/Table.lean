import MetricRelay.Store.Rows

/-!
# Rows of a database

A database keeps metrics in a table with a column for totals and one for readings.  A row written
by someone else may have nothing in the column of its kind.  The table does not tell the two zeros
apart, and a number that is none is nothing to it.

Main definitions:

- `TableRow` and its form as a row.
- `TableRow.snapshot`: the snapshot of a table, if every row has a value.
-/

namespace MetricRelay

/-- A row of the table of metrics. -/
structure TableRow where
  key : Key
  delta : Option Count
  value : Option Binary64
  deriving DecidableEq

namespace TableRow

/-- What the column of readings keeps of a number. -/
def keep : Binary64 → Option Binary64
  | .nan => none
  | x => some x.unsignZero

/-- The row of a metric. -/
def ofMetric (m : Metric) : TableRow :=
  match m.value with
  | .total n => ⟨m.key, some n, none⟩
  | .reading x => ⟨m.key, none, keep x⟩

/-- What is in the column of a kind. -/
def payload? (r : TableRow) : Kind → Option Value
  | .counter => r.delta.map .total
  | .gauge => r.value.map .reading

/-- The value of a row as one of a key. -/
def valueOf (key : Key) (r : TableRow) : Outcome Value :=
  match r.payload? key.kind with
  | some v => .ok v
  | none =>
    .error (.storage ("metric " ++ key.kind.name ++ "/" ++ key.name ++ " has no stored value"))

/-- Rows of the table as rows of a store. -/
def form : RowForm TableRow :=
  { isOf := fun key r => r.key = key
    value := valueOf
    ofMetric := ofMetric }

/-- Put the metric of a row into a snapshot. -/
def putIn (s : Snapshot) (r : TableRow) : Outcome Snapshot := do
  let v ← valueOf r.key r
  return s.put r.key.kind.name r.key.name v.canonical

/-- The snapshot of a table; the first row without a value decides. -/
def snapshot (rows : List TableRow) : Outcome Snapshot :=
  rows.foldlM putIn .empty

/-- Write a row from outside: it replaces the one of its key. -/
def write (r : TableRow) : List TableRow → List TableRow
  | [] => [r]
  | row :: rows => if row.key = r.key then r :: rows else row :: write r rows

end TableRow

end MetricRelay
