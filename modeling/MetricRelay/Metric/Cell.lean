import MetricRelay.Metric.Basic

/-!
# Shared cells

A metric lives in a cell, and everyone who holds the cell's handle sees the same value.  All cells
are kept in one heap; a handle is a position in it, so two handles are the same cell exactly when
they are equal.

Main definitions:

- `Handle` and `Heap`.
- `Heap.get`, `Heap.alloc`, `Heap.set`: reading, a fresh cell, and replacing what a cell holds.
- `Heap.update`, `Heap.flush`, `Heap.acknowledge`: the changes of a metric, through a handle.

Main results:

- `Heap.get_set`: what each handle shows after a change.
-/

namespace MetricRelay

/-- A handle to a cell. -/
structure Handle where
  index : Nat
  deriving DecidableEq

/-- All cells, in the order in which they were made. -/
structure Heap where
  cells : List Metric

namespace Heap

/-- No cells. -/
def empty : Heap := ⟨[]⟩

/-- How many cells there are. -/
def size (heap : Heap) : Nat := heap.cells.length

/-- What a cell holds, if the handle has one. -/
def get? (heap : Heap) (h : Handle) : Option Metric := heap.cells[h.index]?

/-- What a handle without a cell shows. -/
def blank : Metric := ⟨"", .total .zero⟩

/-- What a cell holds. -/
def get (heap : Heap) (h : Handle) : Metric := (heap.get? h).getD blank

/-- The handle of the next fresh cell. -/
def next (heap : Heap) : Handle := ⟨heap.size⟩

/-- A fresh cell. -/
def alloc (heap : Heap) (m : Metric) : Handle × Heap := (heap.next, ⟨heap.cells ++ [m]⟩)

/-- A fresh cell for each metric, in order. -/
def allocAll (heap : Heap) (ms : List Metric) : List Handle × Heap :=
  ((List.range ms.length).map fun i => ⟨heap.size + i⟩, ⟨heap.cells ++ ms⟩)

/-- Replace what a cell holds. -/
def set (heap : Heap) (h : Handle) (m : Metric) : Heap := ⟨heap.cells.set h.index m⟩

/-- Send an update to a cell; a refused update changes nothing. -/
def update (heap : Heap) (h : Handle) (u : Value) : Outcome Value × Heap :=
  match (heap.get h).update u with
  | .ok m => (.ok m.value, heap.set h m)
  | .error e => (.error e, heap)

/-- Start the total of a cell again at zero. -/
def flush (heap : Heap) (h : Handle) : Heap := heap.set h (heap.get h).flush

/-- Take a delivered total away from a cell. -/
def acknowledge (heap : Heap) (h : Handle) (sent : Value) : Heap :=
  heap.set h ((heap.get h).acknowledge sent)

/-- A fresh cell with the present content of another. -/
def detach (heap : Heap) (h : Handle) : Handle × Heap := heap.alloc (heap.get h)

/-- To replace what a cell holds makes no cell. -/
@[simp]
theorem size_set (heap : Heap) (h : Handle) (m : Metric) : (heap.set h m).size = heap.size := by
  simp [set, size]

@[simp]
theorem size_alloc (heap : Heap) (m : Metric) : (heap.alloc m).2.size = heap.size + 1 := by
  simp [alloc, size]

/-- After a cell is replaced its handle shows the new content, and no other handle notices. -/
theorem get_set (heap : Heap) (h h' : Handle) (m : Metric) (valid : h.index < heap.size) :
    (heap.set h m).get h' = if h' = h then m else heap.get h' := by
  unfold get get? set
  by_cases e : h' = h
  · subst e
    simp [size] at valid
    simp [valid]
  · have : h.index ≠ h'.index := fun hi => e (by cases h; cases h'; simp_all)
    simp [this, e]

end Heap

end MetricRelay
