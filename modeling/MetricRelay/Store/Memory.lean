import MetricRelay.Metric.Cell
import MetricRelay.Snapshot.Basic

/-!
# The store in memory

The store in memory has one cell for each key.  Updates are added to the cell, so that a handle to
it stays live; no cell that a caller gave or that a caller is given for an update becomes one of
the store.

Main definitions:

- `Memory`: the cells by their keys.
- `Memory.add`, `Memory.get?`, `Memory.snapshot`, `Memory.restore`.
-/

namespace MetricRelay

/-- The cells of a store in memory, each under the key of its metric. -/
structure Memory where
  cells : List (Key × Handle)
  deriving DecidableEq

namespace Memory

/-- No cells. -/
def empty : Memory := ⟨[]⟩

/-- The cell of a key. -/
def get? (m : Memory) (key : Key) : Option Handle := m.cells.lookup key

/-- Add an update to the cell of its key, or make that cell.  The value afterwards comes in a cell
of its own. -/
def addOne (heap : Heap) (m : Memory) (h : Handle) : Outcome Handle × Heap × Memory :=
  let incoming := heap.get h
  match m.get? incoming.key with
  | some cell =>
    match heap.update cell incoming.value with
    | (.ok v, heap) =>
      let (answer, heap) := heap.alloc ⟨incoming.name, v⟩
      (.ok answer, heap, m)
    | (.error e, heap) => (.error e, heap, m)
  | none =>
    match incoming.addTo none with
    | .ok next =>
      let (cell, heap) := heap.alloc next
      let (answer, heap) := heap.alloc next
      (.ok answer, heap, ⟨m.cells ++ [(incoming.key, cell)]⟩)
    | .error e => (.error e, heap, m)

/-- Add updates one after the other.  The first one that is refused ends this, and those before it
stay. -/
def add (heap : Heap) (m : Memory) : List Handle → Outcome (List Handle) × Heap × Memory
  | [] => (.ok [], heap, m)
  | h :: hs =>
    match addOne heap m h with
    | (.error e, heap, m) => (.error e, heap, m)
    | (.ok answer, heap, m) =>
      let (answers, heap, m) := add heap m hs
      (answers.map (answer :: ·), heap, m)

/-- The cell of a key, which has to be there. -/
def get (m : Memory) (key : Key) : Outcome Handle :=
  match m.get? key with
  | some cell => .ok cell
  | none => .error key.notFound

/-- The metrics in the cells. -/
def metrics (heap : Heap) (m : Memory) : List Metric := m.cells.map fun x => heap.get x.2

/-- The snapshot of the cells. -/
def snapshot (heap : Heap) (m : Memory) : Snapshot := Snapshot.ofMetrics (metrics heap m)

/-- The store with the metrics of a snapshot in fresh cells; one that is no snapshot of metrics is
refused. -/
def restore (heap : Heap) (m : Memory) (s : Snapshot) : Outcome Unit × Heap × Memory :=
  match s.parse with
  | .error e => (.error e, heap, m)
  | .ok ms =>
    let (hs, heap) := heap.allocAll ms
    (.ok (), heap, ⟨(ms.map Metric.key).zip hs⟩)

end Memory

end MetricRelay
