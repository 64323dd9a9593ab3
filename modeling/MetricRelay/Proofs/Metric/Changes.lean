import MetricRelay.Proofs.Metric.Totals

/-!
# Changes of a metric

Whoever has a handle can update, flush and acknowledge the metric in its cell.  What a
row of such changes comes to can be said without the cell: a total is reckoned step by
step, and a reading is the last one that was taken.

Main definitions:

- `Change`, `Metric.change` and `Heap.change`.
- `Change.total`: one step in reckoning a total, with a rule for the ends of the range.
- `Change.lastReading`: the reading that was taken last.

Main results:

- `Heap.get_change`: a change is seen in its own cell and in no other.
- `Metric.foldl_change_total` and `Metric.foldl_change_reading`: what changes come to.
- `Change.foldl_total_of_exact`: a total that stays in the range is the exact one.
-/

namespace MetricRelay

/-- What can be done to a metric through a handle. -/
inductive Change where
  | update (u : Value)
  | flush
  | acknowledge (sent : Value)
  deriving DecidableEq

/-- A metric after a change.  An update that is refused changes nothing. -/
def Metric.change (m : Metric) : Change → Metric
  | .update u =>
    match m.update u with
    | .ok n => n
    | .error _ => m
  | .flush => m.flush
  | .acknowledge sent => m.acknowledge sent

/-- The cells after a change through a handle. -/
def Heap.change (heap : Heap) (h : Handle) : Change → Heap
  | .update u => (heap.update h u).2
  | .flush => heap.flush h
  | .acknowledge sent => heap.acknowledge h sent

/-! ## Cells -/

/-- A change leaves the kind and the name. -/
@[simp]
theorem Metric.key_change (m : Metric) (c : Change) : (m.change c).key = m.key := by
  cases c with
  | update u =>
    simp only [change]
    cases h : m.update u with
    | ok n => exact key_update h
    | error e => rfl
  | flush => exact m.key_flush
  | acknowledge sent => exact m.key_acknowledge sent

namespace Heap

variable {heap : Heap} {h x : Handle}

/-- A change makes no cell. -/
@[simp]
theorem size_change (heap : Heap) (h : Handle) (c : Change) :
    (heap.change h c).size = heap.size := by
  cases c with
  | update u => exact heap.size_update h u
  | flush => exact heap.size_set h _
  | acknowledge sent => exact heap.size_acknowledge h sent

/-- A change is seen in its own cell and in no other. -/
theorem get_change (hvalid : h.index < heap.size) (c : Change) (x : Handle) :
    (heap.change h c).get x = if x = h then (heap.get h).change c else heap.get x := by
  cases c with
  | update u =>
    rw [change, update_snd, Metric.change]
    cases (heap.get h).update u with
    | ok m => exact heap.get_set h x m hvalid
    | error e =>
      by_cases hx : x = h
      · rw [if_pos hx, hx]
      · rw [if_neg hx]
  | flush => exact heap.get_set h x _ hvalid
  | acknowledge sent => exact heap.get_set h x _ hvalid

end Heap

/-! ## Reckoning -/

namespace Change

/-- The nearest integer in the range of totals. -/
def saturate (n : Int) : Int := max Count.least (min Count.greatest n)

/-- A total is brought to the nearest end of the range, if it is beyond one. -/
theorem clamp_val_eq (n : Int) : (Count.clamp n).val = saturate n := by
  have hrange : Count.least ≤ Count.greatest := by decide
  unfold Count.clamp saturate
  split
  · simp only
    omega
  · split
    · simp only
      omega
    · simp only
      omega

/-- In the range an integer stays what it is. -/
theorem saturate_of_mem {n : Int} (h : Count.least ≤ n ∧ n ≤ Count.greatest) : saturate n = n := by
  unfold saturate
  omega

/-- A total after a change, where `limit` says what becomes of a sum or a difference.
Readings are neither added nor taken away. -/
def total (limit : Int → Int) (n : Int) : Change → Int
  | update (.total d) => limit (n + d.val)
  | flush => 0
  | acknowledge (.total d) => limit (n - d.val)
  | update (.reading _) | acknowledge (.reading _) => n

/-- The reading that a change brings, if it is taken. -/
def reading? : Change → Option Binary64
  | update (.reading x) => if x.isFinite then some x else none
  | _ => none

/-- The reading that was taken last, or the one at the start. -/
def lastReading (x : Binary64) (cs : List Change) : Binary64 :=
  (cs.filterMap reading?).getLast?.getD x

/-- As long as no step leaves the range, it makes no difference that a total stops at the
ends. -/
theorem foldl_total_of_exact {n : Int} {cs : List Change}
    (h : ∀ k, Count.least ≤ (cs.take k).foldl (total id) n ∧
      (cs.take k).foldl (total id) n ≤ Count.greatest) :
    cs.foldl (total saturate) n = cs.foldl (total id) n := by
  induction cs generalizing n with
  | nil => rfl
  | cons c cs ih =>
    have hfirst : total saturate n c = total id n c := by
      have hone := h 1
      cases c with
      | update u =>
        cases u with
        | total d => exact saturate_of_mem hone
        | reading x => rfl
      | flush => rfl
      | acknowledge sent =>
        cases sent with
        | total d => exact saturate_of_mem hone
        | reading x => rfl
    rw [List.foldl_cons, List.foldl_cons, hfirst]
    exact ih fun k => h (k + 1)

/-- The first reading that is taken counts if no other one follows. -/
theorem lastReading_cons (x : Binary64) (c : Change) (cs : List Change) :
    lastReading x (c :: cs) = lastReading (c.reading?.getD x) cs := by
  unfold lastReading
  cases hc : c.reading? with
  | none => rw [List.filterMap_cons_none hc, Option.getD_none]
  | some y =>
    rw [List.filterMap_cons_some hc, List.getLast?_cons, Option.getD_some, Option.getD_some]

/-- Only finite readings are taken. -/
theorem isFinite_of_reading? {c : Change} {x : Binary64} (h : c.reading? = some x) :
    x.isFinite = true := by
  unfold reading? at h
  split at h
  · split at h
    · rename_i hx
      cases h
      exact hx
    · cases h
  · cases h

/-- A reading that was finite stays finite. -/
theorem isFinite_lastReading {x : Binary64} (h : x.isFinite = true) (cs : List Change) :
    (lastReading x cs).isFinite = true := by
  induction cs generalizing x with
  | nil => exact h
  | cons c cs ih =>
    rw [lastReading_cons]
    apply ih
    cases hc : c.reading? with
    | none => exact h
    | some y => exact isFinite_of_reading? hc

end Change

namespace Metric

/-- An update is refused if it is not finite, or else if it is of the other kind. -/
theorem map_update_eq_error_iff {m : Metric} {u : Value} {e : Failure} :
    (m.update u).map value = .error e ↔
      u.isFinite = false ∧ e = .unreadable Kind.gauge.name u.canonical ∨
      u.isFinite = true ∧ u.kind ≠ m.kind ∧ e = .kindMismatch m.name m.kind.name u.kind.name := by
  unfold update Value.finite kind
  cases hu : u.isFinite with
  | false => simp [bind, Except.bind, Except.map, eq_comm]
  | true =>
    cases m.value <;> cases u <;>
      simp [bind, Except.bind, Except.map, Value.merge?, Value.kind, eq_comm]

/-- A counter stays one, with the total after the change. -/
theorem change_total (name : String) (n : Count) (c : Change) :
    ∃ n' : Count, (⟨name, .total n⟩ : Metric).change c = ⟨name, .total n'⟩ ∧
      n'.val = c.total Change.saturate n.val := by
  cases c with
  | update u =>
    cases u with
    | total d => exact ⟨n.add d, rfl, Change.clamp_val_eq _⟩
    | reading x =>
      refine ⟨n, ?_, rfl⟩
      unfold change update
      cases hx : x.isFinite <;>
        simp [Value.finite, Value.isFinite, hx, bind, Except.bind, Value.merge?]
  | flush => exact ⟨.zero, rfl, rfl⟩
  | acknowledge sent =>
    cases sent with
    | total d => exact ⟨n.sub d, rfl, Change.clamp_val_eq _⟩
    | reading x => exact ⟨n, rfl, rfl⟩

/-- A total is reckoned step by step, and stops at the ends of the range. -/
theorem foldl_change_total (name : String) (n : Count) (cs : List Change) :
    ∃ n' : Count, cs.foldl change ⟨name, .total n⟩ = ⟨name, .total n'⟩ ∧
      n'.val = cs.foldl (Change.total Change.saturate) n.val := by
  induction cs generalizing n with
  | nil => exact ⟨n, rfl, rfl⟩
  | cons c cs ih =>
    rcases change_total name n c with ⟨n', hchange, hn'⟩
    rw [List.foldl_cons, List.foldl_cons, hchange, ← hn']
    exact ih n'

/-- A gauge stays one, with the reading that the change brings if it brings one. -/
theorem change_reading (name : String) (x : Binary64) (c : Change) :
    (⟨name, .reading x⟩ : Metric).change c = ⟨name, .reading (c.reading?.getD x)⟩ := by
  cases c with
  | update u =>
    cases u with
    | total d => rfl
    | reading y =>
      unfold change update Change.reading?
      cases hy : y.isFinite <;>
        simp [Value.finite, Value.isFinite, hy, bind, Except.bind, Value.merge?]
  | flush => rfl
  | acknowledge sent => cases sent <;> rfl

/-- A reading is the one that was taken last. -/
theorem foldl_change_reading (name : String) (x : Binary64) (cs : List Change) :
    cs.foldl change ⟨name, .reading x⟩ = ⟨name, .reading (Change.lastReading x cs)⟩ := by
  induction cs generalizing x with
  | nil => rfl
  | cons c cs ih => rw [List.foldl_cons, change_reading, ih, Change.lastReading_cons]

end Metric

end MetricRelay
