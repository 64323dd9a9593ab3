import MetricRelay.Proofs.Store.Healing

/-!
# Snapshots of a live store

A backup is a snapshot of the store in memory, and nobody looks whether it can be
loaded again.  It always can: whatever has been added to the store, also in batches
that failed half way, whatever was restored, and whatever others did to its cells
through handles that they had been given, the snapshot is one of metrics, and every
store that takes it gives it back.

Main definitions:

- `Heap.Keeps`: cells after a change through a handle.
- `Memory.Reached`: a store in memory after any calls and changes.
- `Memory.Restorable`: cells of finite metrics under their keys, and a snapshot that
  every store takes.

Main results:

- `Memory.Holds.of_keeps`: changes through handles keep what the store needs.
- `Store.restore_of_takes`: a snapshot of metrics is taken and given back.
- `Memory.Reached.restorable`: the snapshot of a store can always be loaded.
-/

namespace MetricRelay

/-! ## Changes through a handle -/

namespace Metric

variable {m n : Metric} {u : Value}

/-- A finite metric is finite after an update, whether or not the update is taken. -/
theorem isFinite_of_update (h : m.update u = .ok n) (hm : m.value.isFinite = true) :
    n.value.isFinite = true := by
  unfold update at h
  cases hu : u.isFinite with
  | false =>
    rw [Value.finite_of_not_isFinite hu] at h
    cases h
  | true =>
    rw [Value.finite_of_isFinite hu] at h
    simp only [bind, Except.bind] at h
    rcases m with ⟨name, v⟩
    cases v <;> cases u <;> cases h
    · rfl
    · exact hu

/-- A flush leaves a finite value. -/
theorem isFinite_flush (h : m.value.isFinite = true) : m.flush.value.isFinite = true := by
  rcases m with ⟨name, v⟩
  cases v with
  | total d => rfl
  | reading x => exact h

/-- An acknowledgement leaves a finite value. -/
theorem isFinite_acknowledge (h : m.value.isFinite = true) (sent : Value) :
    (m.acknowledge sent).value.isFinite = true := by
  rcases m with ⟨name, v⟩
  cases v with
  | total d => cases sent <;> rfl
  | reading x => exact h

end Metric

namespace Heap

/-- The cells are those that there were, each under its key, and what was finite
still is. -/
structure Keeps (heap heap' : Heap) : Prop where
  size : heap'.size = heap.size
  key : ∀ x, (heap'.get x).key = (heap.get x).key
  finite : ∀ x, (heap.get x).value.isFinite = true → (heap'.get x).value.isFinite = true

section

variable (heap : Heap) (h : Handle)

theorem Keeps.refl : heap.Keeps heap := ⟨rfl, fun _ => rfl, fun _ hx => hx⟩

/-- A cell that is set to a finite value of the same key is as good as before. -/
theorem keeps_set {m : Metric} (hkey : m.key = (heap.get h).key)
    (hfinite : (heap.get h).value.isFinite = true → m.value.isFinite = true) :
    heap.Keeps (heap.set h m) := by
  refine ⟨heap.size_set h m, fun x => key_get_set hkey, fun x hx => ?_⟩
  rcases heap.get_set_cases x h m with hget | ⟨rfl, hget⟩
  · rw [hget]
    exact hx
  · rw [hget]
    exact hfinite hx

/-- An update keeps every cell as good as before. -/
theorem keeps_update (u : Value) : heap.Keeps (heap.update h u).2 := by
  rw [update_snd]
  cases hupdate : (heap.get h).update u with
  | ok m => exact heap.keeps_set h (Metric.key_update hupdate) (Metric.isFinite_of_update hupdate)
  | error e => exact Keeps.refl heap

theorem keeps_flush : heap.Keeps (heap.flush h) :=
  heap.keeps_set h (Metric.key_flush _) Metric.isFinite_flush

theorem keeps_acknowledge (sent : Value) : heap.Keeps (heap.acknowledge h sent) :=
  heap.keeps_set h (Metric.key_acknowledge _ sent) fun hm => Metric.isFinite_acknowledge hm sent

end

/-- A handle with a cell still has one. -/
theorem Keeps.get?_eq {heap heap' : Heap} (h : heap.Keeps heap') {x : Handle} {n : Metric}
    (hget : heap.get? x = some n) : heap'.get? x = some (heap'.get x) := by
  have hvalid : x.index < heap'.size := by
    rw [h.size]
    exact index_lt_of_get? hget
  rcases exists_get?_of_lt hvalid with ⟨n', hget'⟩
  rw [get_eq_of_get? hget', hget']

end Heap

namespace Memory

variable {heap heap' : Heap} {m : Memory} {c : Content}

/-- Whatever is done through handles, of whatever cells, the store holds some metrics
under the same keys. -/
theorem Holds.of_keeps (h : Holds heap m c) (hc : c.Sound) (hkeeps : heap.Keeps heap') :
    ∃ c', Holds heap' m c' ∧ c'.Sound := by
  have hcells : List.Forall₂ (IsCellOf heap') m.cells (m.metrics heap') := by
    refine List.forall₂_map_right_iff.2 (List.forall₂_same.2 fun x hx => ?_)
    rcases exists_of_mem_cells h.cells hx with ⟨n, -, hkey, hget⟩
    refine ⟨?_, hkeeps.get?_eq hget⟩
    rw [hkeeps.key, Heap.get_eq_of_get? hget]
    exact hkey
  refine ⟨m.metrics heap', ⟨hcells, h.nodup⟩, ?_, ?_⟩
  · intro n hn
    rcases List.mem_map.1 hn with ⟨x, hx, rfl⟩
    have hmetric : heap.get x.2 ∈ m.metrics heap := List.mem_map_of_mem hx
    rw [h.metrics_eq] at hmetric
    exact hkeeps.finite x.2 (hc.finite _ hmetric)
  · have hdistinct := hc.distinct
    rw [← h.metrics_eq] at hdistinct
    unfold Content.Distinct metrics at hdistinct ⊢
    rw [List.pairwise_map] at hdistinct ⊢
    refine hdistinct.imp fun {x y} hne => ?_
    rw [hkeeps.key, hkeeps.key]
    exact hne

/-! ## What a store can be asked to do -/

/-- A store in memory after any updates, with cells of any metrics, and any snapshots
that were restored, each with whatever outcome.  In between, metrics of any cells are
updated, flushed and acknowledged, those of the store included. -/
inductive Reached : Heap → Memory → Prop
  | empty (heap : Heap) : Reached heap .empty
  | alloc {heap : Heap} {m : Memory} (n : Metric) (before : Reached heap m) :
      Reached (heap.alloc n).2 m
  | add {heap : Heap} {m : Memory} {hs : List Handle} (before : Reached heap m)
      (valid : ∀ x ∈ hs, x.index < heap.size) :
      Reached (add heap m hs).2.1 (add heap m hs).2.2
  | restore {heap : Heap} {m : Memory} (s : Snapshot) (before : Reached heap m) :
      Reached (restore heap m s).2.1 (restore heap m s).2.2
  | update {heap : Heap} {m : Memory} (x : Handle) (u : Value) (before : Reached heap m) :
      Reached (heap.update x u).2 m
  | flush {heap : Heap} {m : Memory} (x : Handle) (before : Reached heap m) :
      Reached (heap.flush x) m
  | acknowledge {heap : Heap} {m : Memory} (x : Handle) (sent : Value)
      (before : Reached heap m) : Reached (heap.acknowledge x sent) m

/-- Whatever was done, the store holds finite metrics, each under a key of its own. -/
theorem Reached.holds (h : Reached heap m) : ∃ c, Holds heap m c ∧ c.Sound := by
  induction h with
  | empty heap => exact ⟨[], holds_empty heap, Content.sound_nil⟩
  | alloc n _ ih =>
    rcases ih with ⟨c, hholds, hc⟩
    exact ⟨c, hholds.alloc n, hc⟩
  | add _ valid ih =>
    rcases ih with ⟨c, hholds, hc⟩
    rcases hholds.exists_add hc valid with ⟨c', hholds', hc', -⟩
    exact ⟨c', hholds', hc'⟩
  | restore s _ ih => exact exists_holds_restore ih s
  | @update heap m x u _ ih =>
    rcases ih with ⟨c, hholds, hc⟩
    exact hholds.of_keeps hc (heap.keeps_update x u)
  | @flush heap m x _ ih =>
    rcases ih with ⟨c, hholds, hc⟩
    exact hholds.of_keeps hc (heap.keeps_flush x)
  | @acknowledge heap m x sent _ ih =>
    rcases ih with ⟨c, hholds, hc⟩
    exact hholds.of_keeps hc (heap.keeps_acknowledge x sent)

end Memory

/-! ## Stores that take a snapshot -/

namespace Store

/-- A store in memory, or one that can write to its file or its database. -/
def Takes (host : Host) : Store → Prop
  | memory _ => True
  | file f => (f.write host.disk []).1 = .ok ()
  | database d => d.checkWrite host.disk = .ok ()
  | disabled | broken => False

variable {s : Store} {host : Host} {content : Snapshot} {ms : List Metric}

/-- A store that can write takes a snapshot of metrics, whatever it has. -/
theorem fst_restore_of_takes (h : s.Takes host) (hparse : content.parse = .ok ms) :
    (s.restore host content).1 = .ok () := by
  cases s with
  | memory m =>
    rcases Memory.restore_of_parse host.heap m hparse with ⟨heap, m', hrestore, -⟩
    simp only [restore, hrestore]
  | disabled => exact absurd h id
  | file f =>
    rcases f.ready_of_write h with ⟨dir, name, hready⟩
    rcases hready.write_eq (ms.map StoredRecord.ofMetric) with ⟨disk, hwrite, -⟩
    have hrestore : f.restore host.disk content = (.ok (), disk) := by
      rw [MetricsFile.restore, RowForm.ofSnapshot, hparse]
      exact hwrite
    simp only [restore, hrestore]
  | database d =>
    have hcheck : d.checkWrite host.disk = .ok () := h
    simp only [restore, Database.restore, RowForm.ofSnapshot, hparse, Except.map, Database.put,
      hcheck]
  | broken => exact absurd h id

/-- A store that has taken a snapshot of metrics gives it back. -/
theorem restore_of_takes (h : s.Takes host) (hparse : content.parse = .ok ms) :
    ∃ s' host', s.restore host content = (.ok (), s', host') ∧
      (s'.snapshot host').1 = .ok (s.reads (Snapshot.ofMetrics ms)) := by
  have hok := fst_restore_of_takes h hparse
  refine ⟨_, _, Prod.ext hok rfl, ?_⟩
  cases s with
  | memory m =>
    rcases Memory.restore_of_parse host.heap m hparse with ⟨heap, m', hrestore, hholds⟩
    simp only [restore, hrestore]
    exact congrArg Except.ok hholds.snapshot_eq
  | disabled => exact absurd h id
  | file f => exact IsBackup.snapshot_restore (s := .file f) trivial hparse hok
  | database d => exact IsBackup.snapshot_restore (s := .database d) trivial hparse hok
  | broken => exact absurd h id

end Store

/-! ## Snapshots of the store -/

/-- A type of a snapshot of metrics is a kind and has a name under it. -/
theorem Snapshot.kind_of_find? {c : Content} (hc : c.Distinct) {type : String}
    {d : Dictionary String} (h : (ofMetrics c).find? type = some d) :
    (∃ kind : Kind, kind.name = type) ∧ d.entries ≠ [] := by
  rcases isFilled_ofMetrics c type d h with ⟨name, text, hname⟩
  constructor
  · have hlookup := lookup?_ofMetrics hc type name
    rw [lookup?, h, Option.bind_some, hname] at hlookup
    rcases Option.bind_eq_some_iff.1 hlookup.symm with ⟨kind, hkind, -⟩
    exact ⟨kind, Kind.ofName?_eq_some_iff.1 hkind⟩
  · exact List.ne_nil_of_mem (Dictionary.find?_eq_some_iff.1 hname)

namespace Memory

/-- The cells of a store have finite metrics under their keys.  Its snapshot has no other
types than the kinds and no empty ones, it is read as metrics of which it is the snapshot,
and a store that takes it gives it back, up to the sign of zero if it is a database. -/
structure Restorable (heap : Heap) (m : Memory) : Prop where
  cells : ∀ x ∈ m.cells, ∃ n, heap.get? x.2 = some n ∧ n.key = x.1 ∧ n.value.isFinite = true
  types : ∀ type d, (m.snapshot heap).find? type = some d →
    (∃ kind : Kind, kind.name = type) ∧ d.entries ≠ []
  parses : ∃ ms, (m.snapshot heap).parse = .ok ms ∧ Snapshot.ofMetrics ms = m.snapshot heap
  restores : ∀ (s : Store) (host : Host), s.Takes host →
    ∃ s' host', s.restore host (m.snapshot heap) = (.ok (), s', host') ∧
      (s'.snapshot host').1 = .ok (s.reads (m.snapshot heap))

variable {heap : Heap} {m : Memory} {c : Content}

/-- Memory with sound contents can be restored. -/
theorem Holds.restorable_of_sound (h : Holds heap m c) (hc : c.Sound) : Restorable heap m := by
  rcases hc.parse_ofMetrics with ⟨ms, hparse, hms, hsame⟩
  have hback : Snapshot.ofMetrics ms = Snapshot.ofMetrics c :=
    (hsame.ofMetrics_eq hc.distinct hms.distinct).symm
  have hsnapshot := h.snapshot_eq
  constructor
  · intro x hx
    rcases exists_of_mem_cells h.cells hx with ⟨n, hn, hkey, hget⟩
    exact ⟨n, hget, hkey.symm, hc.finite n hn⟩
  · intro type d hfind
    rw [hsnapshot] at hfind
    exact Snapshot.kind_of_find? hc.distinct hfind
  · rw [hsnapshot]
    exact ⟨ms, hparse, hback⟩
  · intro s host htakes
    rw [hsnapshot, ← hback]
    exact Store.restore_of_takes htakes (hback ▸ hparse)

/-- Whatever was done to a store in memory, its snapshot can be loaded by every store. -/
theorem Reached.restorable (h : Reached heap m) : Restorable heap m := by
  rcases h.holds with ⟨c, hholds, hc⟩
  exact hholds.restorable_of_sound hc

/-- A batch that failed half way, changes of a total and a reading through the cells of
the store, and a snapshot that is none of metrics. -/
theorem restorable_of_changed_cells :
    let given := (Heap.empty.allocAll [⟨"polls", .total (.clamp 7)⟩, ⟨"load", .reading (.zero true)⟩,
      ⟨"load", .reading .nan⟩, ⟨"late", .total (.clamp 1)⟩]).2
    let added := add given .empty [⟨0⟩, ⟨1⟩, ⟨2⟩, ⟨3⟩]
    let polls := (added.2.2.get? ⟨.counter, "polls"⟩).getD ⟨0⟩
    let load := (added.2.2.get? ⟨.gauge, "load"⟩).getD ⟨0⟩
    let changed := ((added.2.1.acknowledge polls (.total (.clamp 9))).update load (.reading .nan)).2
    let left := restore changed added.2.2 (Snapshot.put .empty "counter" "polls" "many")
    added.1 = .error (.unreadable "gauge" "NaN") ∧ Restorable left.2.1 left.2.2 ∧
      (left.2.2.snapshot left.2.1).triples = [("counter", "polls", "-2"), ("gauge", "load", "-0")] := by
  intro given added polls load changed left
  have hgiven : Reached given .empty := .empty given
  have hadded : Reached added.2.1 added.2.2 := hgiven.add (by decide)
  have hchanged : Reached changed added.2.2 := (hadded.acknowledge polls _).update load _
  have hleft : Reached left.2.1 left.2.2 := hchanged.restore _
  exact ⟨by decide +kernel, hleft.restorable, by decide +kernel⟩

end Memory

end MetricRelay
