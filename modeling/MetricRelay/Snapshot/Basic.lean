import MetricRelay.Metric.Basic
import MetricRelay.Snapshot.Dictionary

/-!
# Snapshots

A snapshot is the content of a store as texts: for each type the names under it, and for each
name the text of its value.  It is what stores exchange, so it may come from elsewhere and hold
types that are not kinds and texts that are not values.

Main definitions:

- `Snapshot`, `Snapshot.find?`, `Snapshot.insert`.
- `Snapshot.ofMetrics`: the snapshot of some metrics.
- `Snapshot.parse`: the metrics of a snapshot, if it is one of metrics.
-/

namespace MetricRelay

/-- Types, names under them, and the texts of their values. -/
abbrev Snapshot := Dictionary (Dictionary String)

namespace Snapshot

/-- The text under a type and a name. -/
def lookup? (s : Snapshot) (type name : String) : Option String :=
  (s.find? type).bind (·.find? name)

/-- Have an entry for a type, if only an empty one. -/
def withType (s : Snapshot) (type : String) : Snapshot :=
  s.insert type ((s.find? type).getD .empty)

/-- Put a text under a type and a name. -/
def put (s : Snapshot) (type name text : String) : Snapshot :=
  s.insert type (((s.find? type).getD .empty).insert name text)

/-- Put a metric in. -/
def putMetric (s : Snapshot) (m : Metric) : Snapshot :=
  s.put m.kind.name m.name m.value.canonical

/-- The snapshot of some metrics; of two with the same kind and name the later one counts. -/
def ofMetrics (ms : List Metric) : Snapshot :=
  ms.foldl putMetric .empty

/-- The entries, in the order of types and then of names. -/
def triples (s : Snapshot) : List (String × String × String) :=
  s.entries.flatMap fun t => t.2.entries.map fun n => (t.1, n.1, n.2)

/-- The metrics of the entries under one type, which has to be a kind even if it has none. -/
def parseType (t : String × Dictionary String) : Outcome (List Metric) := do
  let kind ← Kind.parse t.1
  t.2.entries.mapM fun n => Metric.parse kind n.1 n.2

/-- The metrics of a snapshot, in the order of kinds and then of names; the first entry that is
no metric decides. -/
def parse (s : Snapshot) : Outcome (List Metric) := do
  let lists ← s.entries.mapM parseType
  return lists.flatten

/-- After a text is put in, its place shows it and every other place what it showed. -/
@[simp]
theorem lookup?_put (s : Snapshot) (type name text type' name' : String) :
    (s.put type name text).lookup? type' name' =
      if type = type' ∧ name = name' then some text else s.lookup? type' name' := by
  unfold lookup? put
  rw [Dictionary.find?_insert]
  by_cases h : type = type'
  · subst h
    simp only [if_true, Option.bind_some, Dictionary.find?_insert, true_and]
    split
    · rfl
    · cases s.find? type <;> simp
  · simp [h]

end Snapshot

end MetricRelay
