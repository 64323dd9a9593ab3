import Mathlib.Data.List.Forall2
import Mathlib.Data.List.Nodup
import MetricRelay.Metric.Cell

/-!
# Cells and handles

What handles show after a cell is made or replaced, for handles that have a
cell.  A cell that is made is one that no older handle can see.

Main results:

- `Heap.get?_set`: what each handle shows after a cell is replaced.
- `Heap.shows_allocAll`: fresh cells for a list of metrics.
-/

namespace MetricRelay

namespace Heap

variable {heap : Heap} {h h' : Handle} {m n : Metric}

/-- A cell that is there has what is found in it. -/
theorem get_eq_of_get? (hget : heap.get? h = some m) : heap.get h = m := by
  rw [get, hget]
  rfl

/-- Where something is found there is a cell. -/
theorem index_lt_of_get? (hget : heap.get? h = some m) : h.index < heap.size := by
  rcases List.getElem?_eq_some_iff.1 hget with ⟨hlt, -⟩
  exact hlt

/-- A handle with a cell shows what the cell is replaced by, and no other handle
notices. -/
theorem get?_set (hvalid : h.index < heap.size) (m : Metric) :
    (heap.set h m).get? h' = if h' = h then some m else heap.get? h' := by
  by_cases heq : h' = h
  · subst heq
    rw [if_pos rfl]
    exact List.getElem?_set_self hvalid
  · have hindex : h.index ≠ h'.index := by
      intro hindex
      cases h
      cases h'
      exact heq (congrArg Handle.mk hindex.symm)
    rw [if_neg heq]
    exact List.getElem?_set_ne hindex

@[simp]
theorem alloc_fst (heap : Heap) (m : Metric) : (heap.alloc m).1 = heap.next := rfl

/-- A fresh cell shows what was put into it. -/
@[simp]
theorem get?_alloc_next (heap : Heap) (m : Metric) :
    (heap.alloc m).2.get? heap.next = some m :=
  List.getElem?_concat_length

/-- No older handle notices a fresh cell. -/
theorem get?_alloc (hget : heap.get? h = some m) (n : Metric) :
    (heap.alloc n).2.get? h = some m := by
  have hlt := index_lt_of_get? hget
  rw [← hget]
  exact List.getElem?_append_left hlt

/-- No older handle is that of a fresh cell. -/
theorem ne_next_of_get? (hget : heap.get? h = some m) : h ≠ heap.next := by
  intro heq
  have hlt := index_lt_of_get? hget
  rw [heq] at hlt
  exact absurd hlt (Nat.lt_irrefl _)

/-! ## Several cells -/

/-- Handles show metrics. -/
def Shows (heap : Heap) (hs : List Handle) (ms : List Metric) : Prop :=
  List.Forall₂ (fun h m => heap.get? h = some m) hs ms

/-- Handles show what is in their cells. -/
theorem Shows.map_get {hs : List Handle} {ms : List Metric} (h : heap.Shows hs ms) :
    hs.map heap.get = ms := by
  induction h with
  | nil => rfl
  | cons hget _ ih => rw [List.map_cons, ih, get_eq_of_get? hget]

/-- New cells leave the others as they are. -/
theorem get?_allocAll (hget : heap.get? h = some m) (ms : List Metric) :
    (heap.allocAll ms).2.get? h = some m := by
  have hlt := index_lt_of_get? hget
  rw [← hget]
  exact List.getElem?_append_left hlt

/-- No older handle notices fresh cells. -/
theorem get_allocAll_of_lt {x : Handle} (hx : x.index < heap.size) (ms : List Metric) :
    (heap.allocAll ms).2.get x = heap.get x := by
  have hget : (heap.allocAll ms).2.get? x = heap.get? x := List.getElem?_append_left hx
  rw [get, get, hget]

theorem get_alloc_of_lt {x : Handle} (hx : x.index < heap.size) (m : Metric) :
    (heap.alloc m).2.get x = heap.get x :=
  get_allocAll_of_lt hx [m]

/-- A fresh cell shows the metric at its place among those that the cells were made for. -/
theorem get?_allocAll_fresh (heap : Heap) (ms : List Metric) (i : Nat) :
    (heap.allocAll ms).2.get? ⟨heap.size + i⟩ = ms[i]? := by
  show (heap.cells ++ ms)[heap.cells.length + i]? = ms[i]?
  rw [List.getElem?_append_right (Nat.le_add_right _ _), Nat.add_sub_cancel_left]

/-- Fresh cells show what was put into them. -/
theorem shows_allocAll (heap : Heap) (ms : List Metric) :
    (heap.allocAll ms).2.Shows (heap.allocAll ms).1 ms := by
  have hlength : (heap.allocAll ms).1.length = ms.length := by
    simp [allocAll]
  refine List.forall₂_iff_get.2 ⟨hlength, fun i hi hi' => ?_⟩
  have hfresh : (heap.allocAll ms).1.get ⟨i, hi⟩ = ⟨heap.size + i⟩ := by
    simp [allocAll]
  rw [hfresh, get?_allocAll_fresh]
  exact List.getElem?_eq_getElem hi'

/-- No two fresh cells are the same. -/
theorem nodup_allocAll (heap : Heap) (ms : List Metric) : (heap.allocAll ms).1.Nodup := by
  refine List.Nodup.map ?_ List.nodup_range
  intro i j heq
  exact Nat.add_left_cancel (Handle.mk.inj heq)

/-- No older handle is that of a fresh cell. -/
theorem not_mem_allocAll (hget : heap.get? h = some m) (ms : List Metric) :
    h ∉ (heap.allocAll ms).1 := by
  intro hmem
  have hlt := index_lt_of_get? hget
  rcases List.mem_map.1 hmem with ⟨i, -, heq⟩
  rw [← heq] at hlt
  have hle : heap.size ≤ heap.size + i := Nat.le_add_right _ _
  exact absurd hlt (Nat.not_lt.2 hle)

/-- Fresh cells are there. -/
theorem index_lt_of_mem_allocAll {ms : List Metric} (hmem : h ∈ (heap.allocAll ms).1) :
    h.index < (heap.allocAll ms).2.size := by
  rcases List.mem_map.1 hmem with ⟨i, hi, rfl⟩
  show heap.cells.length + i < (heap.cells ++ ms).length
  rw [List.length_append]
  exact Nat.add_lt_add_left (List.mem_range.1 hi) _

end Heap

end MetricRelay
