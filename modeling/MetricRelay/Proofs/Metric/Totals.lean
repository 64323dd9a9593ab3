import MetricRelay.Proofs.Metric.Cells

/-!
# Totals in cells

A total counts something.  As long as nothing stops at the ends of the range, an
update adds what it counts to its cell, an acknowledgement takes it away, and no
other cell notices.

Main definitions:

- `Value.amount`: what a value counts.
- `Value.AddsExactly` and `Value.SubtractsExactly`: the result is in the range.
- `Heap.IsCounter`: a handle has a cell with a total.

Main results:

- `Heap.amount_update` and `Heap.amount_acknowledge`: what cells count after a
  change.
-/

namespace MetricRelay

/-! ## Values -/

namespace Value

/-- The number that a value counts; a reading counts nothing. -/
def amount : Value → Int
  | total n => n.val
  | reading _ => 0

/-- A sum of two totals is in the range. -/
def AddsExactly : Value → Value → Prop
  | total n, total d => (n.add d).val = n.val + d.val
  | _, _ => True

/-- A difference of two totals is in the range. -/
def SubtractsExactly : Value → Value → Prop
  | total n, total d => (n.sub d).val = n.val - d.val
  | _, _ => True

/-- What is not more than a total can be taken away from it. -/
theorem subtractsExactly_of_le {n d : Count} (hnonneg : 0 ≤ d.val) (hle : d.val ≤ n.val) :
    (total n).SubtractsExactly (total d) := by
  have hgreatest := n.le_greatest
  have hleast : Count.least ≤ 0 := by decide
  exact Count.clamp_of_mem (by omega) (by omega)

/-- A counter has a total. -/
theorem exists_of_kind_counter {v : Value} (h : v.kind = .counter) : ∃ n, v = total n := by
  cases v with
  | total n => exact ⟨n, rfl⟩
  | reading x => cases h

/-- Away from the ends of the range an acknowledgement takes exactly what was sent. -/
theorem amount_acknowledge {v sent : Value} (hv : v.kind = .counter)
    (h : v.SubtractsExactly sent) : (v.acknowledge sent).amount = v.amount - sent.amount := by
  rcases exists_of_kind_counter hv with ⟨n, rfl⟩
  cases sent with
  | total d => exact h
  | reading x => exact (Int.sub_zero n.val).symm

end Value

namespace Metric

variable {m n : Metric} {u : Value}

/-- An update of a total adds what it counts; one that is refused counts
nothing. -/
theorem amount_update (hm : m.kind = .counter) (h : m.value.AddsExactly u) :
    match m.update u with
    | .ok n => n.value.amount = m.value.amount + u.amount
    | .error _ => u.amount = 0 := by
  rcases m with ⟨name, v⟩
  rcases Value.exists_of_kind_counter hm with ⟨n, rfl⟩
  cases u with
  | total d => exact h
  | reading x =>
    cases hx : x.isFinite with
    | true => simp [update, Value.finite, Value.isFinite, hx, bind, Except.bind, Value.merge?,
        Value.amount]
    | false => simp [update, Value.finite, Value.isFinite, hx, bind, Except.bind, Value.amount]

end Metric

/-! ## Cells -/

namespace Heap

variable {heap : Heap} {h h' : Handle} {m : Metric} {u : Value}

/-- A cell is not changed through another handle. -/
theorem get_set_of_ne (heap : Heap) (hne : h' ≠ h) (m : Metric) :
    (heap.set h' m).get h = heap.get h := by
  have hindex : h'.index ≠ h.index := by
    intro hindex
    cases h
    cases h'
    exact hne (congrArg Handle.mk hindex)
  unfold get get? set
  rw [List.getElem?_set_ne hindex]

/-- Nothing is replaced for a handle without a cell. -/
theorem set_of_size_le (heap : Heap) (hsize : heap.size ≤ h.index) (m : Metric) :
    heap.set h m = heap := by
  unfold set
  rw [List.set_eq_of_length_le hsize]

/-- A handle shows what it showed, or what its cell was replaced by. -/
theorem get_set_cases (heap : Heap) (h h' : Handle) (m : Metric) :
    (heap.set h' m).get h = heap.get h ∨ h' = h ∧ (heap.set h' m).get h = m := by
  by_cases heq : h' = h
  · subst heq
    by_cases hvalid : h'.index < heap.size
    · refine .inr ⟨rfl, ?_⟩
      rw [get_set heap h' h' m hvalid, if_pos rfl]
    · rw [heap.set_of_size_le (Nat.le_of_not_lt hvalid)]
      exact .inl rfl
  · exact .inl (get_set_of_ne heap heq m)

/-- A cell that is replaced by one of its own key keeps every key. -/
theorem key_get_set (hkey : m.key = (heap.get h').key) :
    ((heap.set h' m).get h).key = (heap.get h).key := by
  rcases heap.get_set_cases h h' m with hget | ⟨rfl, hget⟩
  · rw [hget]
  · rw [hget, hkey]

/-- An update sets its cell if it is taken. -/
theorem update_snd (heap : Heap) (h : Handle) (u : Value) :
    (heap.update h u).2 =
      match (heap.get h).update u with
      | .ok m => heap.set h m
      | .error _ => heap := by
  unfold update
  cases (heap.get h).update u with
  | ok m => rfl
  | error e => rfl

/-- An update makes no cell. -/
@[simp]
theorem size_update (heap : Heap) (h : Handle) (u : Value) :
    (heap.update h u).2.size = heap.size := by
  rw [update_snd]
  cases (heap.get h).update u with
  | ok m => exact heap.size_set h m
  | error e => rfl

@[simp]
theorem size_acknowledge (heap : Heap) (h : Handle) (sent : Value) :
    (heap.acknowledge h sent).size = heap.size :=
  heap.size_set h _

/-- An update leaves the kinds and the names of all cells. -/
@[simp]
theorem key_get_update (heap : Heap) (h' h : Handle) (u : Value) :
    ((heap.update h' u).2.get h).key = (heap.get h).key := by
  rw [update_snd]
  cases hupdate : (heap.get h').update u with
  | ok m => exact key_get_set (Metric.key_update hupdate)
  | error e => rfl

/-- A flush leaves the kinds and the names of all cells. -/
@[simp]
theorem key_get_flush (heap : Heap) (h' h : Handle) :
    ((heap.flush h').get h).key = (heap.get h).key :=
  key_get_set (Metric.key_flush _)

/-- An acknowledgement leaves the kinds and the names of all cells. -/
@[simp]
theorem key_get_acknowledge (heap : Heap) (h' h : Handle) (sent : Value) :
    ((heap.acknowledge h' sent).get h).key = (heap.get h).key :=
  key_get_set (Metric.key_acknowledge _ _)

/-- What a handle counts. -/
def amount (heap : Heap) (h : Handle) : Int := (heap.get h).value.amount

/-- A handle has a cell, and the cell has a total. -/
structure IsCounter (heap : Heap) (h : Handle) : Prop where
  valid : h.index < heap.size
  kind : (heap.get h).kind = .counter

theorem IsCounter.congr {heap' : Heap} (hcounter : heap.IsCounter h)
    (hsize : heap'.size = heap.size) (hkey : (heap'.get h).key = (heap.get h).key) :
    heap'.IsCounter h :=
  ⟨by rw [hsize]; exact hcounter.valid, (congrArg Key.kind hkey).trans hcounter.kind⟩

/-- A counter shows a total under its name. -/
theorem IsCounter.exists_get? (hcounter : heap.IsCounter h) :
    ∃ n, heap.get? h = some ⟨(heap.get h).name, .total n⟩ ∧ heap.amount h = n.val := by
  rcases Value.exists_of_kind_counter hcounter.kind with ⟨n, hn⟩
  have hvalid : h.index < heap.cells.length := hcounter.valid
  have hget : heap.get? h = some (heap.get h) := by
    have hcell : heap.get? h = some heap.cells[h.index] := List.getElem?_eq_getElem hvalid
    rw [get_eq_of_get? hcell]
    exact hcell
  refine ⟨n, ?_, ?_⟩
  · rw [hget, ← hn]
  · rw [amount, hn]
    rfl

/-- A cell with a total is the one of a counter. -/
theorem isCounter_of_get? {name : String} {n : Count} (hget : heap.get? h = some ⟨name, .total n⟩) :
    heap.IsCounter h := by
  refine ⟨index_lt_of_get? hget, ?_⟩
  rw [get_eq_of_get? hget]
  rfl

/-- An update adds what it counts to its own cell. -/
theorem amount_update (hcounter : heap.IsCounter h) (hexact : (heap.get h').value.AddsExactly u) :
    (heap.update h' u).2.amount h = heap.amount h + if h' = h then u.amount else 0 := by
  rw [update_snd]
  by_cases heq : h' = h
  · subst heq
    have hone := Metric.amount_update hcounter.kind hexact
    rw [if_pos rfl]
    cases hupdate : (heap.get h').update u with
    | ok m =>
      rw [hupdate] at hone
      show ((heap.set h' m).get h').value.amount = _
      rw [get_set heap h' h' m hcounter.valid, if_pos rfl]
      exact hone
    | error e =>
      rw [hupdate] at hone
      simp only at hone ⊢
      rw [hone, Int.add_zero]
  · rw [if_neg heq, Int.add_zero]
    cases (heap.get h').update u with
    | ok m => exact congrArg (·.value.amount) (get_set_of_ne heap heq m)
    | error e => rfl

/-- An acknowledgement takes what was sent away from its own cell. -/
theorem amount_acknowledge {sent : Value} (hcounter : heap.IsCounter h)
    (hexact : (heap.get h').value.SubtractsExactly sent) :
    (heap.acknowledge h' sent).amount h = heap.amount h - if h' = h then sent.amount else 0 := by
  unfold acknowledge amount
  by_cases heq : h' = h
  · subst heq
    rw [if_pos rfl, get_set heap h' h' _ hcounter.valid, if_pos rfl]
    exact Value.amount_acknowledge hcounter.kind hexact
  · rw [if_neg heq, Int.sub_zero, get_set_of_ne heap heq]

end Heap

end MetricRelay
