import MetricRelay.Proofs.Store.Apart
import MetricRelay.Store.Backed

/-!
# The layers of a store with a backup

A store with a backup has two layers.  Nothing is copied from one to the other but
snapshots: updates are added to each layer on its own.  This file says what every
call does to the contents of both.

Main definitions:

- `Backed.Layers`: the contents of both layers, in cells of their own.

Main results:

- `Backed.Layers.add` and `Backed.Layers.exists_add`: updates that are taken, and
  any updates.
- `Backed.Layers.restore`: the content of a snapshot.
- `Backed.Layers.createBackup` and `Backed.Layers.restoreFromBackup`: one layer
  comes to hold what the other does.
-/

namespace MetricRelay

/-! ## Answers of a store in memory -/

namespace Memory

variable {heap : Heap} {m : Memory}

/-- The answers to updates are cells that were not there before. -/
theorem le_index_of_add {hs answers : List Handle} {heap' : Heap} {m' : Memory}
    (hadd : add heap m hs = (.ok answers, heap', m')) : ∀ x ∈ answers, heap.size ≤ x.index :=
  fun _ hx => (size_le_of_mem_add (congrArg Prod.fst hadd) hx).1

end Memory

/-! ## Layers -/

/-- What the backup holds after a write, which only reaches it in synchronous
mode. -/
def SyncMode.written (mode : SyncMode) (written kept : Content) : Content :=
  match mode with
  | synchronous => written
  | asynchronous => kept

namespace Backed

/-- Both layers of a store with a backup hold contents, in cells of their own. -/
structure Layers (b : Backed) (host : Host) (c d : Content) : Prop where
  memory : Memory.Holds host.heap b.memory c
  backup : Session.Holds ⟨b.backup, host⟩ d
  sound : c.Sound
  sound_backup : d.Sound
  apart : ∀ x ∈ b.memory.handles, x ∉ b.backup.handles

/-- Cells of neither layer. -/
def Fresh (b : Backed) (host : Host) (hs : List Handle) : Prop :=
  ∀ x ∈ hs, x.index < host.heap.size ∧ x ∉ b.memory.handles ∧ x ∉ b.backup.handles

section

variable {b : Backed} {host : Host} {c d : Content} {hs : List Handle}

/-- Nothing in memory, over a backup. -/
theorem layers_over {backup : Store} (h : Session.Holds ⟨backup, host⟩ d) (hd : d.Sound)
    (mode : SyncMode) : (Backed.«over» backup mode).Layers host [] d where
  memory := Memory.holds_empty host.heap
  backup := h
  sound := Content.sound_nil
  sound_backup := hd
  apart x hx := by cases hx

/-- A call of the memory leaves the backup alone. -/
theorem Layers.withMemory (h : b.Layers host c d) {heap : Heap} {memory : Memory} {c' : Content}
    (hspares : Memory.Spares host.heap b.memory heap memory)
    (hholds : Memory.Holds heap memory c') (hc' : c'.Sound) :
    ({ b with memory := memory } : Backed).Layers { host with heap := heap } c' d := by
  have hcells {x : Handle} (hx : x ∈ b.backup.handles) {n : Metric}
      (hget : host.heap.get? x = some n) : heap.get? x = some n ∧ x ∉ memory.handles :=
    hspares x n hget fun hmem => h.apart x hmem hx
  refine ⟨hholds, h.backup.congr rfl fun x hx n hget => (hcells hx hget).1, hc', h.sound_backup,
    fun x hmem hx => ?_⟩
  rcases h.backup.exists_get? hx with ⟨n, hget⟩
  exact (hcells hx hget).2 hmem

/-- A call of the backup leaves the memory alone. -/
theorem Layers.withBackup (h : b.Layers host c d) {s : Session} {d' : Content}
    (hspares : Session.Spares ⟨b.backup, host⟩ s) (hholds : s.Holds d') (hd' : d'.Sound) :
    ({ b with backup := s.store } : Backed).Layers s.host c d' := by
  refine ⟨h.memory.congr fun x hx n hget => (hspares.cells hget (h.apart x hx)).1, hholds,
    h.sound, hd', fun x hx => ?_⟩
  rcases h.memory.exists_get? hx with ⟨n, hget⟩
  exact (hspares.cells hget (h.apart x hx)).2

/-- A new cell belongs to neither layer. -/
theorem Layers.alloc (h : b.Layers host c d) (m : Metric) : b.Layers (host.alloc m).2 c d :=
  ⟨h.memory.alloc m, h.backup.congr rfl fun _ _ _ hget => Heap.get?_alloc hget m, h.sound,
    h.sound_backup, h.apart⟩

/-- Several new cells belong to neither layer. -/
theorem Layers.allocAll (h : b.Layers host c d) (ms : List Metric) :
    b.Layers (host.allocAll ms).2 c d ∧ b.Fresh (host.allocAll ms).2 (host.allocAll ms).1 := by
  refine ⟨⟨h.memory.allocAll ms, h.backup.congr rfl fun _ _ _ hget => Heap.get?_allocAll hget ms,
    h.sound, h.sound_backup, h.apart⟩, fun x hx =>
      ⟨Heap.index_lt_of_mem_allocAll hx, fun hmem => ?_, fun hmem => ?_⟩⟩
  · rcases h.memory.exists_get? hmem with ⟨n, hget⟩
    exact Heap.not_mem_allocAll hget ms hx
  · rcases h.backup.exists_get? hmem with ⟨n, hget⟩
    exact Heap.not_mem_allocAll hget ms hx

/-- The memory may hold what the backup gives for its content. -/
theorem Layers.readHost (h : b.Layers host c d) :
    b.Layers (b.backup.readHost host) (b.backup.readBack c) d := by
  rcases b with ⟨m, backup, mode⟩
  cases backup with
  | memory m' => exact h
  | disabled => exact h
  | file f => exact h
  | database database =>
    exact ⟨h.memory.map_unsignZero, h.backup, h.sound.map_unsignZero, h.sound_backup, h.apart⟩
  | broken => exact h

/-! ## Updates -/

/-- Fresh cells are given to both layers. -/
theorem Fresh.given (h : b.Fresh host hs) :
    Memory.Given host.heap b.memory hs (host.getAll hs) ∧
      Session.Given ⟨b.backup, host⟩ hs (host.getAll hs) := by
  have hget {x : Handle} (hx : x ∈ hs) : host.heap.get? x = some (host.heap.get x) := by
    rcases Heap.exists_get?_of_lt (h x hx).1 with ⟨n, hn⟩
    rw [Heap.get_eq_of_get? hn]
    exact hn
  constructor
  · exact List.forall₂_map_right_iff.2
      (List.forall₂_same.2 fun x hx => ⟨hget hx, (h x hx).2.1⟩)
  · exact List.forall₂_map_right_iff.2
      (List.forall₂_same.2 fun x hx => ⟨hget hx, (h x hx).2.2⟩)

/-- Finite updates in fresh cells are taken, in synchronous mode by both layers. -/
theorem Layers.add (h : b.Layers host c d) (hfresh : b.Fresh host hs)
    (hfinite : ∀ n ∈ host.getAll hs, n.value.isFinite = true) :
    ∃ answers b' host', b.add host hs = (.ok answers, b', host') ∧
      b'.Layers host' (Content.add (host.getAll hs) c).2
        (b.mode.written (Content.add (host.getAll hs) d).2 d) ∧
      host'.getAll answers = (Content.add (host.getAll hs) c).1 ∧ b'.mode = b.mode := by
  rcases hfresh.given with ⟨hgiven, -⟩
  rcases Memory.add_of_isFinite h.memory hgiven hfinite with
    ⟨answers, heap, memory, hadd, hholds, hanswers, hspares⟩
  have hlayers := h.withMemory hspares hholds (h.sound.add hfinite)
  cases hmode : b.mode with
  | asynchronous =>
    have hshows : heap.Shows answers (Content.add (host.getAll hs) c).1 :=
      hanswers.imp fun _ _ hx => hx.1
    refine ⟨answers, _, _, ?_, hlayers, hshows.map_get, hmode⟩
    simp only [Backed.add, hadd, hmode]
  | synchronous =>
    have hcells : Session.Given ⟨b.backup, { host with heap := heap }⟩ hs (host.getAll hs) :=
      ((List.forall₂_and_left _ _).2 ⟨fun x hx => (hfresh x hx).2.2, hgiven.spared hspares⟩).imp
        fun _ _ hx => ⟨hx.2.1, hx.1⟩
    rcases hlayers.backup.add h.sound_backup.finite hcells hfinite with
      ⟨copies, s, hcopy, hholds', -, hspares'⟩
    have hshows : s.host.heap.Shows answers (Content.add (host.getAll hs) c).1 := by
      have hout : ∀ x ∈ answers, x ∉ b.backup.handles := by
        intro x hx hmem
        rcases h.backup.exists_get? hmem with ⟨n, hget⟩
        exact absurd (Heap.index_lt_of_get? hget) (Nat.not_lt.2 (Memory.le_index_of_add hadd x hx))
      exact ((List.forall₂_and_left _ _).2 ⟨hout, hanswers⟩).imp fun _ _ hx =>
        (hspares'.cells hx.2.1 hx.1).1
    refine ⟨answers, _, _, ?_, hlayers.withBackup hspares' hholds' (h.sound_backup.add hfinite),
      hshows.map_get, hmode⟩
    simp only [Backed.add, hadd, hmode, hcopy, Except.map]

/-- Whatever cells are given, both layers hold some contents after updates. -/
theorem Layers.exists_add (h : b.Layers host c d) (hvalid : ∀ x ∈ hs, x.index < host.heap.size) :
    ∃ c' d', (b.add host hs).2.1.Layers (b.add host hs).2.2 c' d' := by
  rcases h.memory.exists_add h.sound hvalid with ⟨c', hholds, hc', hspares⟩
  have hsize := Memory.size_le_add host.heap b.memory hs
  have hlayers := h.withMemory hspares hholds hc'
  rcases b with ⟨m, backup, mode⟩
  simp only at hsize hlayers
  rcases hadd : m.add host.heap hs with ⟨result, heap, memory⟩
  simp only [hadd] at hsize hlayers
  simp only [Backed.add, hadd]
  cases mode with
  | asynchronous => exact ⟨c', d, hlayers⟩
  | synchronous =>
    cases result with
    | error e => exact ⟨c', d, hlayers⟩
    | ok answers =>
      have hvalid' : ∀ x ∈ hs, x.index < heap.size := fun x hx =>
        Nat.lt_of_lt_of_le (hvalid x hx) hsize
      rcases hlayers.backup.exists_add h.sound_backup hvalid' with ⟨d', hholds', hd', hspares'⟩
      exact ⟨c', d', hlayers.withBackup hspares' hholds' hd'⟩

/-! ## Snapshots -/

/-- A snapshot of metrics becomes the content, in synchronous mode of both
layers. -/
theorem Layers.restore (h : b.Layers host c d) {s : Snapshot} {ms : List Metric}
    (hparse : s.parse = .ok ms) :
    ∃ b' host', b.restore host s = (.ok (), b', host') ∧
      b'.Layers host' ms (b.mode.written ms d) ∧ b'.mode = b.mode := by
  have hms := Snapshot.sound_of_parse hparse
  have hspares := Memory.spares_restore host.heap b.memory s
  rcases Memory.restore_of_parse host.heap b.memory hparse with ⟨heap, memory, hrestore, hholds⟩
  rw [hrestore] at hspares
  have hlayers := h.withMemory hspares hholds hms
  cases hmode : b.mode with
  | asynchronous =>
    refine ⟨_, _, ?_, hlayers, hmode⟩
    simp only [Backed.restore, hrestore, hmode]
  | synchronous =>
    rcases hlayers.backup.restore h.sound_backup.finite hparse with ⟨s', hcopy, hholds', hspares'⟩
    refine ⟨_, _, ?_, hlayers.withBackup hspares' hholds' hms, hmode⟩
    simp only [Backed.restore, hrestore, hmode, hcopy]

/-- A snapshot that cannot be parsed is refused and changes nothing. -/
theorem restore_of_error (b : Backed) (host : Host) {s : Snapshot} {e : Failure}
    (hparse : s.parse = .error e) : b.restore host s = (.error e, b, host) := by
  rcases b with ⟨m, backup, mode⟩
  simp only [Backed.restore, Memory.restore_of_error host.heap m hparse]

/-- The backup comes to hold what the memory does. -/
theorem Layers.createBackup (h : b.Layers host c d) :
    ∃ d' b' host', b.createBackup host = (.ok (), b', host') ∧ b'.Layers host' c d' ∧
      c.Same d' ∧ b'.mode = b.mode := by
  rcases h.sound.parse_ofMetrics with ⟨d', hparse, hd', hsame⟩
  rw [← h.memory.snapshot_eq] at hparse
  rcases h.backup.restore h.sound_backup.finite hparse with ⟨s, hrestore, hholds, hspares⟩
  refine ⟨d', _, _, ?_, h.withBackup hspares hholds hd', hsame, rfl⟩
  simp only [Backed.createBackup, hrestore]

/-- The memory comes to hold what the backup gives. -/
theorem Layers.restoreFromBackup (h : b.Layers host c d) :
    ∃ c' b' host', b.restoreFromBackup host = (.ok (), b', host') ∧
      b'.Layers host' c' (b.backup.readBack d) ∧ (b.backup.readBack d).Same c' ∧
      b'.mode = b.mode := by
  have hd := b.backup.sound_readBack h.sound_backup
  rcases hd.parse_ofMetrics with ⟨c', hparse, hc', hsame⟩
  rcases h.backup.snapshot h.sound_backup.finite with ⟨host', hsnapshot, hholds, hheap⟩
  rw [← b.backup.reads_ofMetrics h.sound_backup.finite] at hparse
  have hlayers : b.Layers host' c (b.backup.readBack d) := by
    refine ⟨?_, hholds.readBack, h.sound, hd, h.apart⟩
    rw [hheap]
    exact h.memory
  have hspares := Memory.spares_restore host'.heap b.memory (b.backup.reads (.ofMetrics d))
  rcases Memory.restore_of_parse host'.heap b.memory hparse with ⟨heap, memory, hrestore, hholds'⟩
  rw [hrestore] at hspares
  refine ⟨c', _, _, ?_, hlayers.withMemory hspares hholds' hc', hsame, rfl⟩
  simp only [Backed.restoreFromBackup, hsnapshot, hrestore]

end

end Backed

end MetricRelay
