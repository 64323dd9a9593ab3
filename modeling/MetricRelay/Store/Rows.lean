import MetricRelay.Snapshot.Basic

/-!
# Rows

A store outside memory keeps its metrics as rows in some order, and each row is known by the key of
its metric.  An update goes to the first row of its key, in place, or becomes a new row at the end.
A store of rows differs from another only in the form of a row.

Main definitions:

- `RowForm`: how rows of some type stand for metrics.
- `RowForm.merge`, `RowForm.mergeAll`: the rows after one update and after several.
- `RowForm.get`: the metric of a key.

Main results:

- `RowForm.mergeAll_append`: updates may be taken in two parts.
-/

namespace MetricRelay

/-- How rows stand for metrics: which row is known by which key, what value it has, and which row a
metric becomes. -/
structure RowForm (ρ : Type) where
  isOf : Key → ρ → Bool
  value : Key → ρ → Outcome Value
  ofMetric : Metric → ρ

namespace RowForm

variable {ρ : Type} (form : RowForm ρ)

/-- The metric of the first row of a key. -/
def get (key : Key) (rows : List ρ) : Outcome Metric :=
  match rows.find? (form.isOf key) with
  | some row => (form.value key row).map fun v => ⟨key.name, v⟩
  | none => .error key.notFound

/-- Add an update to some rows: the metric that its key has afterwards, and the rows. -/
def merge (m : Metric) : List ρ → Outcome (Metric × List ρ)
  | [] => do
    let next ← m.addTo none
    return (next, [form.ofMetric next])
  | row :: rows =>
    if form.isOf m.key row then do
      let kept ← form.value m.key row
      let next ← m.addTo (some kept)
      return (next, form.ofMetric next :: rows)
    else do
      let (next, rows) ← merge m rows
      return (next, row :: rows)

/-- Add updates to some rows, one after the other, or none of them if one is refused. -/
def mergeAll : List Metric → List ρ → Outcome (List Metric × List ρ)
  | [], rows => .ok ([], rows)
  | m :: ms, rows => do
    let (next, rows) ← form.merge m rows
    let (nexts, rows) ← mergeAll ms rows
    return (next :: nexts, rows)

/-- The rows of a snapshot, if it is one of metrics. -/
def ofSnapshot (s : Snapshot) : Outcome (List ρ) :=
  s.parse.map fun ms => ms.map form.ofMetric

/-- Updates may be taken in two parts. -/
theorem mergeAll_append (ms ms' : List Metric) (rows : List ρ) :
    form.mergeAll (ms ++ ms') rows =
      (do
        let (nexts, rows) ← form.mergeAll ms rows
        let (nexts', rows) ← form.mergeAll ms' rows
        return (nexts ++ nexts', rows)) := by
  induction ms generalizing rows with
  | nil =>
    simp only [List.nil_append, mergeAll, bind, Except.bind]
    cases form.mergeAll ms' rows <;> rfl
  | cons m ms ih =>
    simp only [List.cons_append, mergeAll, ih, bind, Except.bind, pure, Except.pure]
    cases form.merge m rows with
    | error e => rfl
    | ok x =>
      simp only
      cases form.mergeAll ms x.2 with
      | error e => rfl
      | ok y =>
        simp only
        cases form.mergeAll ms' y.2 <;> rfl

end RowForm

end MetricRelay
