import MetricRelay.Proofs.Store.Layers
import MetricRelay.Proofs.Store.Wholeness

/-!
# Failing backups

A backup may fail at any call: someone changed its disk, or the call failed by
itself, also after it began to write.  A call that fails in the backup leaves the
backup as it was, and the memory as if nothing had failed.  So the layers may grow
apart, until a backup succeeds: a snapshot replaces everything that was there.

Main definitions:

- `Store.IsBackup` and `Store.Unchanged`: what a backup has, on any disk.
- `Backed.under`: a call whose part in the backup may fail.
- `Backed.Endured`: a store after calls that may have failed.
- `Backed.Heals`: what the next call does, whether or not it fails.

Main results:

- `Store.IsBackup.add_of_error` and `Store.restore_of_error`: a failing call leaves
  the backup.
- `Store.IsBackup.snapshot_restore`: a snapshot that is taken replaces everything.
- `Backed.Endured.heals`: after any calls failures do no harm, and the next backup
  that succeeds is complete.
-/

namespace MetricRelay

/-! ## Backups on any disk -/

namespace Store

/-- A backup of one of the three kinds.  In memory it holds some metrics; what is
on the disk for it may be anything. -/
def IsBackup (host : Host) : Store → Prop
  | memory m => ∃ c : Content, Memory.Holds host.heap m c ∧ c.Sound
  | file _ | database _ => True
  | disabled | broken => False

/-- A store has on another host what it had: the same metrics, records or rows. -/
def Unchanged (s : Store) (host host' : Host) : Prop :=
  match s with
  | memory m => m.metrics host'.heap = m.metrics host.heap
  | file f => f.read host'.disk = f.read host.disk
  | database d => d.rows host'.disk = d.rows host.disk
  | disabled | broken => True

section

variable {s : Store} {host host' host'' : Host} {hs : List Handle} {content : Snapshot}
  {e : Failure}

theorem Unchanged.refl (s : Store) (host : Host) : s.Unchanged host host := by
  cases s <;> trivial

theorem Unchanged.trans (h : s.Unchanged host host') (h' : s.Unchanged host' host'') :
    s.Unchanged host host'' := by
  cases s with
  | memory m => exact Eq.trans h' h
  | disabled => trivial
  | file f => exact Eq.trans h' h
  | database d => exact Eq.trans h' h
  | broken => trivial

/-- Only a store in memory looks at cells, and only at its own. -/
theorem unchanged_of_cells (hdisk : host'.disk = host.disk)
    (hcells : ∀ x ∈ s.handles, host'.heap.get? x = host.heap.get? x) :
    s.Unchanged host host' := by
  cases s with
  | memory m =>
    refine List.map_congr_left fun x hx => ?_
    have hget := hcells x.2 (List.mem_map_of_mem hx)
    unfold Heap.get
    rw [hget]
  | disabled => trivial
  | file f => exact congrArg f.read hdisk
  | database d => exact congrArg d.rows hdisk
  | broken => trivial

/-- The snapshot of a store that has what it had is the same, or fails alike. -/
theorem Unchanged.snapshot_eq (h : s.Unchanged host host') :
    (s.snapshot host').1 = (s.snapshot host).1 := by
  cases s with
  | memory m => exact congrArg (fun ms => Except.ok (Snapshot.ofMetrics ms)) h
  | disabled => rfl
  | file f => exact congrArg (Except.map StoredRecord.snapshot) h
  | database d =>
    have hrows : d.rows host'.disk = d.rows host.disk := h
    show (d.snapshot host'.disk).1 = (d.snapshot host.disk).1
    unfold Database.snapshot
    simp only [Database.fst_read, hrows]
  | broken => rfl

/-- Whether a store is a backup depends on its cells only. -/
theorem IsBackup.congr (h : s.IsBackup host)
    (hkeep : ∀ x ∈ s.handles, ∀ n, host.heap.get? x = some n → host'.heap.get? x = some n) :
    s.IsBackup host' := by
  cases s with
  | memory m =>
    rcases h with ⟨c, hholds, hc⟩
    exact ⟨c, hholds.congr hkeep, hc⟩
  | disabled => exact h
  | file f => trivial
  | database d => trivial
  | broken => exact h

/-- The cells of a backup are there. -/
theorem IsBackup.exists_get? (h : s.IsBackup host) {x : Handle} (hx : x ∈ s.handles) :
    ∃ n, host.heap.get? x = some n := by
  cases s with
  | memory m =>
    rcases h with ⟨c, hholds, -⟩
    exact hholds.exists_get? hx
  | disabled => cases hx
  | file f => cases hx
  | database d => cases hx
  | broken => cases hx

/-! ### Calls -/

/-- Whatever updates come, a backup is one afterwards. -/
theorem IsBackup.add (h : s.IsBackup host) (hvalid : ∀ x ∈ hs, x.index < host.heap.size) :
    (s.add host hs).2.1.IsBackup (s.add host hs).2.2 ∧
      Session.Spares ⟨s, host⟩ ⟨(s.add host hs).2.1, (s.add host hs).2.2⟩ := by
  cases s with
  | memory m =>
    rcases h with ⟨c, hholds, hc⟩
    rcases hholds.exists_add hc hvalid with ⟨c', hholds', hc', hspares⟩
    exact ⟨⟨c', hholds', hc'⟩, .memory host.disk hspares⟩
  | disabled => exact absurd h id
  | file f => exact ⟨trivial, .other rfl fun x n hget => Session.get?_answer _ _ hget⟩
  | database d => exact ⟨trivial, .other rfl fun x n hget => Session.get?_answer _ _ hget⟩
  | broken => exact absurd h id

/-- Updates that fail leave a backup.  One in memory takes all that are finite. -/
theorem IsBackup.add_of_error (h : s.IsBackup host) (hvalid : ∀ x ∈ hs, x.index < host.heap.size)
    (hfinite : ∀ x ∈ hs, (host.heap.get x).value.isFinite = true)
    (herror : (s.add host hs).1 = .error e) :
    (s.add host hs).2.1 = s ∧ (s.add host hs).2.2.heap = host.heap ∧
      s.Unchanged host (s.add host hs).2.2 := by
  cases s with
  | memory m =>
    rcases h with ⟨c, hholds, hc⟩
    rcases hholds.exists_answers hc hvalid hfinite with ⟨answers, hadd⟩
    have hanswers : (m.add host.heap hs).1 = .error e := herror
    rw [hadd] at hanswers
    cases hanswers
  | disabled => exact absurd h id
  | file f =>
    rcases (failsWhole_file f host).add herror with ⟨hstore, hheap, hunharmed⟩
    exact ⟨hstore, hheap, hunharmed.read_eq⟩
  | database d =>
    rcases (failsWhole_database d host).add herror with ⟨hstore, hheap, hunharmed⟩
    exact ⟨hstore, hheap, hunharmed.rows⟩
  | broken => exact absurd h id

/-- Whatever snapshot comes, a backup is one afterwards. -/
theorem IsBackup.restore (h : s.IsBackup host) (content : Snapshot) :
    (s.restore host content).2.1.IsBackup (s.restore host content).2.2 := by
  cases s with
  | memory m => exact Memory.exists_holds_restore h content
  | disabled => exact h
  | file f => trivial
  | database d => trivial
  | broken => exact h

/-- A snapshot that is not taken leaves a store. -/
theorem restore_of_error (herror : (s.restore host content).1 = .error e) :
    (s.restore host content).2.1 = s ∧ (s.restore host content).2.2.heap = host.heap ∧
      s.Unchanged host (s.restore host content).2.2 := by
  cases s with
  | memory m =>
    cases hparse : content.parse with
    | error e' =>
      have hrestore : (memory m).restore host content = (.error e', memory m, host) := by
        simp only [Store.restore, Memory.restore_of_error host.heap m hparse]
      rw [hrestore]
      exact ⟨rfl, rfl, .refl _ _⟩
    | ok ms =>
      rcases Memory.restore_of_parse host.heap m hparse with ⟨heap, m', hrestore, -⟩
      simp only [Store.restore, hrestore] at herror
      cases herror
  | disabled => exact ⟨rfl, rfl, trivial⟩
  | file f => exact ⟨rfl, rfl, (f.unharmed_restore herror).read_eq⟩
  | database d => exact ⟨rfl, rfl, (d.unharmed_restore herror).rows⟩
  | broken => exact ⟨rfl, rfl, trivial⟩

/-- A snapshot that is taken is all that a backup has then, on whatever disk. -/
theorem IsBackup.snapshot_restore (h : s.IsBackup host) {ms : List Metric}
    (hparse : content.parse = .ok ms) (hok : (s.restore host content).1 = .ok ()) :
    ((s.restore host content).2.1.snapshot (s.restore host content).2.2).1 =
      .ok (s.reads (Snapshot.ofMetrics ms)) := by
  cases s with
  | memory m =>
    rcases Memory.restore_of_parse host.heap m hparse with ⟨heap, m', hrestore, hholds⟩
    simp only [Store.restore, hrestore]
    exact congrArg Except.ok hholds.snapshot_eq
  | disabled => exact absurd h id
  | file f =>
    have hread := f.read_restore hparse hok
    show (f.snapshot (f.restore host.disk content).2) = _
    unfold MetricsFile.snapshot
    rw [hread]
    exact congrArg Except.ok (StoredRecord.snapshot_map ms)
  | database d =>
    have hrows := d.rows_restore hparse hok
    have hfinite := (Snapshot.sound_of_parse hparse).finite
    show (d.snapshot (d.restore host.disk content).2).1 = _
    unfold Database.snapshot
    simp only [Database.fst_read, hrows]
    rw [reads, ← Content.ofMetrics_unsignZero hfinite]
    exact TableRow.snapshot_map hfinite
  | broken => exact absurd h id

end

end Store

/-! ## Calls that may fail -/

/-- How the backup takes part in a call: as it can, or it fails by itself.  A file
may then have been begun under the name that is written first. -/
inductive Fate where
  | works
  | fails (begun : Option Utf8.Bytes)

namespace Store

/-- The host after a store failed by itself. -/
def leave (s : Store) (host : Host) (begun : Option Utf8.Bytes) : Host :=
  match s, begun with
  | file f, some content =>
    match host.disk.write f.draftPath content with
    | .ok disk => { host with disk := disk }
    | .error _ => host
  | _, _ => host

section

variable (s : Store) (host : Host) (begun : Option Utf8.Bytes)

/-- What was begun leaves at most a draft. -/
theorem leave_cases : s.leave host begun = host ∨ ∃ f content disk, s = file f ∧
    host.disk.write f.draftPath content = .ok disk ∧
    s.leave host begun = { host with disk := disk } := by
  unfold leave
  split
  · rename_i f content
    cases hwrite : host.disk.write f.draftPath content with
    | error fault => exact .inl rfl
    | ok disk => exact .inr ⟨f, content, disk, rfl, hwrite, rfl⟩
  · exact .inl rfl

/-- What was begun leaves the cells as they were. -/
theorem heap_leave : (s.leave host begun).heap = host.heap := by
  rcases s.leave_cases host begun with h | ⟨f, content, disk, -, -, h⟩
  · rw [h]
  · rw [h]

/-- What was begun is not in the file yet. -/
theorem unchanged_leave : s.Unchanged host (s.leave host begun) := by
  rcases s.leave_cases host begun with h | ⟨f, content, disk, rfl, hwrite, h⟩
  · rw [h]
    exact .refl s host
  · rw [h]
    exact (f.unharmed_of_write_draft hwrite).read_eq

/-- A snapshot does not change what a store gives. -/
theorem unchanged_snapshot : s.Unchanged host (s.snapshot host).2 := by
  cases s with
  | database d =>
    show d.rows (d.snapshot host.disk).2 = d.rows host.disk
    unfold Database.snapshot
    exact d.rows_read host.disk
  | memory m => rfl
  | disabled => trivial
  | file f => rfl
  | broken => trivial

end

end Store

namespace Backed

/-- A call with a fate of the backup's part in it. -/
def under {α : Type} (b : Backed) (host : Host) (fate : Fate)
    (call : Backed → Host → Outcome α × Backed × Host) : Outcome α × Backed × Host :=
  match fate with
  | .works => call b host
  | .fails begun =>
    let (result, after, host) := call { b with backup := .broken } host
    (result, { after with backup := b.backup }, b.backup.leave host begun)

/-- A store over a backup that had anything at first, after any calls any of which
may have failed.  Between them others do to the disk what they like. -/
inductive Endured : Backed → Host → Prop
  | start {backup : Store} {host : Host} (mode : SyncMode) (found : backup.IsBackup host) :
      Endured (.«over» backup mode) host
  | outside {b : Backed} {host : Host} (disk : Disk) (before : Endured b host) :
      Endured b { host with disk := disk }
  | alloc {b : Backed} {host : Host} (m : Metric) (before : Endured b host) :
      Endured b (host.alloc m).2
  | add {b : Backed} {host : Host} {hs : List Handle} (fate : Fate) (before : Endured b host)
      (valid : ∀ x ∈ hs, x.index < host.heap.size) :
      Endured (b.under host fate (add · · hs)).2.1 (b.under host fate (add · · hs)).2.2
  | restore {b : Backed} {host : Host} (s : Snapshot) (fate : Fate) (before : Endured b host) :
      Endured (b.under host fate (restore · · s)).2.1 (b.under host fate (restore · · s)).2.2
  | createBackup {b : Backed} {host : Host} (fate : Fate) (before : Endured b host) :
      Endured (b.under host fate createBackup).2.1 (b.under host fate createBackup).2.2
  | restoreFromBackup {b : Backed} {host : Host} (fate : Fate) (before : Endured b host) :
      Endured (b.under host fate restoreFromBackup).2.1
        (b.under host fate restoreFromBackup).2.2

/-- Two states have the same metrics in memory, in the same cells. -/
def SameMemory (x y : Backed × Host) : Prop :=
  x.1.memory = y.1.memory ∧ ∀ h ∈ x.1.memory.handles, x.2.heap.get? h = y.2.heap.get? h

/-- A call left both layers as they were. -/
structure LeftAlone (b : Backed) (host : Host) (after : Backed × Host) : Prop where
  store : after.1 = b
  heap : after.2.heap = host.heap
  backup : b.backup.Unchanged host after.2

/-- If a call fails it leaves the backup as it was, and the memory as the call
leaves it where it succeeds, which may depend on the disk. -/
def FailsCleanly {α : Type} (b : Backed) (host : Host)
    (call : Backed → Host → Outcome α × Backed × Host) : Prop :=
  ∀ fate e, (b.under host fate call).1 = .error e →
    (b.under host fate call).2.1.backup = b.backup ∧
    b.backup.Unchanged host (b.under host fate call).2.2 ∧
    ∀ fate' disk a, (b.under { host with disk := disk } fate' call).1 = .ok a →
      SameMemory (b.under host fate call).2 (b.under { host with disk := disk } fate' call).2

/-- Failures do no harm, and a backup that succeeds is complete: it gives what the
memory does, and nothing that it had before.  Updates and snapshots that the memory
takes can only fail in the backup. -/
structure Heals (b : Backed) (host : Host) : Prop where
  backs : ∀ fate e, (b.under host fate createBackup).1 = .error e →
    b.LeftAlone host (b.under host fate createBackup).2
  loads : ∀ fate e, (b.under host fate restoreFromBackup).1 = .error e →
    b.LeftAlone host (b.under host fate restoreFromBackup).2
  adds : b.mode = .synchronous → ∀ hs answers, (∀ x ∈ hs, x.index < host.heap.size) →
    (b.memory.add host.heap hs).1 = .ok answers → b.FailsCleanly host (add · · hs)
  restores : b.mode = .synchronous → ∀ s ms, s.parse = .ok ms →
    b.FailsCleanly host (restore · · s)
  completes : ∀ fate, (b.under host fate createBackup).1 = .ok () →
    SameMemory (b, host) (b.under host fate createBackup).2 ∧
    ((b.under host fate createBackup).2.1.backup.snapshot
        (b.under host fate createBackup).2.2).1 =
      .ok (b.backup.reads (b.memory.snapshot host.heap))

section

variable {α β : Type} {b : Backed} {host : Host} {hs : List Handle}

/-! ## What stays true -/

/-- The memory holds some metrics, over a backup with cells of its own. -/
structure Stands (b : Backed) (host : Host) : Prop where
  memory : ∃ c : Content, Memory.Holds host.heap b.memory c ∧ c.Sound
  backup : b.backup.IsBackup host
  apart : ∀ x ∈ b.memory.handles, x ∉ b.backup.handles

/-- Where the cells that were there are still as they were, memory stands. -/
theorem Stands.congr (h : b.Stands host) {host' : Host}
    (hkeep : ∀ x n, host.heap.get? x = some n → host'.heap.get? x = some n) :
    b.Stands host' := by
  rcases h.memory with ⟨c, hholds, hc⟩
  exact ⟨⟨c, hholds.congr fun x _ => hkeep x, hc⟩, h.backup.congr fun x _ => hkeep x, h.apart⟩

theorem Stands.of_heap_eq (h : b.Stands host) {host' : Host} (hheap : host'.heap = host.heap) :
    b.Stands host' :=
  h.congr fun x n hget => by rw [hheap]; exact hget

/-- A call of the memory leaves the backup alone. -/
theorem Stands.withMemory (h : b.Stands host) {heap : Heap} {memory : Memory}
    (hspares : Memory.Spares host.heap b.memory heap memory)
    (hholds : ∃ c : Content, Memory.Holds heap memory c ∧ c.Sound) :
    ({ b with memory := memory } : Backed).Stands { host with heap := heap } ∧
      b.backup.Unchanged host { host with heap := heap } := by
  have hcells {x : Handle} (hx : x ∈ b.backup.handles) {n : Metric}
      (hget : host.heap.get? x = some n) : heap.get? x = some n ∧ x ∉ memory.handles :=
    hspares x n hget fun hmem => h.apart x hmem hx
  refine ⟨⟨hholds, h.backup.congr fun x hx n hget => (hcells hx hget).1, fun x hmem hx => ?_⟩,
    Store.unchanged_of_cells rfl fun x hx => ?_⟩
  · rcases h.backup.exists_get? hx with ⟨n, hget⟩
    exact (hcells hx hget).2 hmem
  · rcases h.backup.exists_get? hx with ⟨n, hget⟩
    rw [hget]
    exact (hcells hx hget).1

/-- A call of the backup leaves the memory alone. -/
theorem Stands.withBackup (h : b.Stands host) {s : Session}
    (hspares : Session.Spares ⟨b.backup, host⟩ s) (hbackup : s.store.IsBackup s.host) :
    ({ b with backup := s.store } : Backed).Stands s.host ∧
      SameMemory (b, host) ({ b with backup := s.store }, s.host) := by
  rcases h.memory with ⟨c, hholds, hc⟩
  have hcells {x : Handle} (hx : x ∈ b.memory.handles) {n : Metric}
      (hget : host.heap.get? x = some n) : s.host.heap.get? x = some n ∧ x ∉ s.store.handles :=
    hspares.cells hget (h.apart x hx)
  refine ⟨⟨⟨c, hholds.congr fun x hx n hget => (hcells hx hget).1, hc⟩, hbackup, fun x hx => ?_⟩,
    rfl, fun x hx => ?_⟩
  · rcases hholds.exists_get? hx with ⟨n, hget⟩
    exact (hcells hx hget).2
  · rcases hholds.exists_get? hx with ⟨n, hget⟩
    exact hget.trans (hcells hx hget).1.symm

/-! ## Writes to both layers -/

/-- A write whose part in memory is done; in synchronous mode it then goes to the
backup, unless it was refused. -/
def both (b : Backed) (host : Host) (step : Outcome α × Heap × Memory)
    (act : Store → Host → Outcome β × Store × Host) : Outcome α × Backed × Host :=
  match b.mode, step.1 with
  | .synchronous, .ok a =>
    let (copied, backup, host) := act b.backup { host with heap := step.2.1 }
    (copied.map fun _ => a, { b with memory := step.2.2, backup := backup }, host)
  | _, result => (result, { b with memory := step.2.2 }, { host with heap := step.2.1 })

/-- A write of both layers goes on to the backup or ends with the memory. -/
theorem both_cases (b : Backed) (host : Host) (step : Outcome α × Heap × Memory)
    (act : Store → Host → Outcome β × Store × Host) :
    (∃ a, b.mode = .synchronous ∧ step.1 = .ok a ∧ b.both host step act =
      ((act b.backup { host with heap := step.2.1 }).1.map fun _ => a,
        { b with
          memory := step.2.2
          backup := (act b.backup { host with heap := step.2.1 }).2.1 },
        (act b.backup { host with heap := step.2.1 }).2.2)) ∨
    ((b.mode = .asynchronous ∨ ∃ e, step.1 = .error e) ∧ b.both host step act =
      (step.1, { b with memory := step.2.2 }, { host with heap := step.2.1 })) := by
  rcases b with ⟨memory, backup, mode⟩
  rcases step with ⟨result, heap, memory'⟩
  cases mode with
  | asynchronous => exact .inr ⟨.inl rfl, rfl⟩
  | synchronous =>
    cases result with
    | error e => exact .inr ⟨.inr ⟨e, rfl⟩, rfl⟩
    | ok a => exact .inl ⟨a, rfl, rfl, rfl⟩

/-- Updates are made in memory, and then in the backup. -/
theorem add_eq_both (b : Backed) (host : Host) (hs : List Handle) :
    b.add host hs = b.both host (b.memory.add host.heap hs) (Store.add · · hs) := by
  rcases b with ⟨memory, backup, mode⟩
  rcases hadd : memory.add host.heap hs with ⟨result, step⟩
  simp only [add, both, hadd]
  cases mode <;> cases result <;> rfl

/-- A restore is made in memory, and then in the backup. -/
theorem restore_eq_both (b : Backed) (host : Host) (s : Snapshot) :
    b.restore host s = b.both host (b.memory.restore host.heap s) (Store.restore · · s) := by
  rcases b with ⟨memory, backup, mode⟩
  rcases hrestore : memory.restore host.heap s with ⟨result, heap, memory'⟩
  simp only [restore, both, hrestore]
  cases mode with
  | asynchronous => cases result <;> rfl
  | synchronous =>
    cases result with
    | error e => rfl
    | ok u =>
      rcases backup.restore { host with heap := heap } s with ⟨copied, rest⟩
      cases copied <;> rfl

/-- A write whose part in memory leaves the cells of others alone, and which a
backup takes, or fails to take and is left as it was. -/
structure Writes (b : Backed) (host : Host) (step : Outcome α × Heap × Memory)
    (act : Store → Host → Outcome β × Store × Host) : Prop where
  spares : Memory.Spares host.heap b.memory step.2.1 step.2.2
  holds : ∃ c : Content, Memory.Holds step.2.1 step.2.2 c ∧ c.Sound
  taken : ∀ (s : Store) disk, s.IsBackup ⟨step.2.1, disk⟩ →
    (act s ⟨step.2.1, disk⟩).2.1.IsBackup (act s ⟨step.2.1, disk⟩).2.2 ∧
      Session.Spares ⟨s, ⟨step.2.1, disk⟩⟩
        ⟨(act s ⟨step.2.1, disk⟩).2.1, (act s ⟨step.2.1, disk⟩).2.2⟩
  failed : ∀ a, step.1 = .ok a → ∀ (s : Store) disk e, s.IsBackup ⟨step.2.1, disk⟩ →
    (act s ⟨step.2.1, disk⟩).1 = .error e →
      (act s ⟨step.2.1, disk⟩).2.1 = s ∧ (act s ⟨step.2.1, disk⟩).2.2.heap = step.2.1 ∧
        s.Unchanged ⟨step.2.1, disk⟩ (act s ⟨step.2.1, disk⟩).2.2
  broken : ∀ host, act .broken host = (.error Store.onFire, .broken, host)

section

variable {step : Outcome α × Heap × Memory} {act : Store → Host → Outcome β × Store × Host}

/-- A write leaves the memory with some metrics, over a backup with cells of its
own. -/
theorem Stands.both (h : b.Stands host) (hw : b.Writes host step act) :
    (b.both host step act).2.1.Stands (b.both host step act).2.2 := by
  rcases h.withMemory hw.spares hw.holds with ⟨hstands, -⟩
  rcases both_cases b host step act with ⟨a, -, -, hboth⟩ | ⟨-, hboth⟩
  · rcases hw.taken b.backup host.disk hstands.backup with ⟨hbackup, hspares⟩
    rw [hboth]
    exact (hstands.withBackup hspares hbackup).1
  · rw [hboth]
    exact hstands

/-- A write whose part in the backup fails by itself is done in memory. -/
theorem Writes.under_fails (hw : b.Writes host step act) (begun : Option Utf8.Bytes)
    {call : Backed → Host → Outcome α × Backed × Host}
    (hcall : call { b with backup := .broken } host =
      ({ b with backup := .broken } : Backed).both host step act) :
    (b.under host (.fails begun) call).2 =
      ({ b with memory := step.2.2 }, b.backup.leave { host with heap := step.2.1 } begun) := by
  unfold under
  simp only [hcall]
  rcases both_cases { b with backup := .broken } host step act with ⟨a, -, -, hboth⟩ | ⟨-, hboth⟩
  · simp only [hboth, hw.broken]
  · simp only [hboth]

/-- Whatever the fate of such a write, the memory has some metrics, over a backup
with cells of its own. -/
theorem Stands.under (h : b.Stands host) (hw : b.Writes host step act)
    {call : Backed → Host → Outcome α × Backed × Host}
    (hcall : ∀ backup, call { b with backup := backup } host =
      ({ b with backup := backup } : Backed).both host step act) (fate : Fate) :
    (b.under host fate call).2.1.Stands (b.under host fate call).2.2 := by
  cases fate with
  | works =>
    have hworks : b.under host .works call = b.both host step act := hcall b.backup
    rw [hworks]
    exact h.both hw
  | fails begun =>
    rw [hw.under_fails begun (hcall .broken)]
    exact (h.withMemory hw.spares hw.holds).1.of_heap_eq (b.backup.heap_leave _ begun)

/-- In synchronous mode it fails if the memory takes it. -/
theorem Writes.fst_under_fails (hw : b.Writes host step act) (begun : Option Utf8.Bytes)
    (hmode : b.mode = .synchronous) {a : α} (hstep : step.1 = .ok a)
    {call : Backed → Host → Outcome α × Backed × Host}
    (hcall : call { b with backup := .broken } host =
      ({ b with backup := .broken } : Backed).both host step act) :
    (b.under host (.fails begun) call).1 = .error Store.onFire := by
  unfold under
  simp only [hcall]
  rcases both_cases { b with backup := .broken } host step act with
    ⟨a', -, -, hboth⟩ | ⟨hmode' | ⟨e, hstep'⟩, -⟩
  · simp only [hboth, hw.broken]
    rfl
  · cases hmode.symm.trans hmode'
  · cases hstep.symm.trans hstep'

section Taken

variable {a : α} {call : Backed → Host → Outcome α × Backed × Host}

/-- A write that succeeds leaves the memory as its part in memory does. -/
theorem Stands.sameMemory_under (h : b.Stands host) (hw : b.Writes host step act)
    (hmode : b.mode = .synchronous) (hstep : step.1 = .ok a)
    (hcall : ∀ backup, call { b with backup := backup } host =
      ({ b with backup := backup } : Backed).both host step act) (fate : Fate) {a' : α}
    (hok : (b.under host fate call).1 = .ok a') :
    SameMemory ({ b with memory := step.2.2 }, { host with heap := step.2.1 })
      (b.under host fate call).2 := by
  cases fate with
  | fails begun =>
    rw [hw.fst_under_fails begun hmode hstep (hcall .broken)] at hok
    cases hok
  | works =>
    have hstands := (h.withMemory hw.spares hw.holds).1
    rcases hw.taken b.backup host.disk hstands.backup with ⟨hbackup, hspares⟩
    have hworks : b.under host .works call = b.both host step act := hcall b.backup
    rw [hworks]
    rcases both_cases b host step act with ⟨a', -, -, hboth⟩ | ⟨-, hboth⟩
    · rw [hboth]
      exact (hstands.withBackup hspares hbackup).2
    · rw [hboth]
      exact ⟨rfl, fun x _ => rfl⟩

/-- A write that the memory takes and that fails is done in memory, and the backup is
as it was. -/
theorem Stands.under_of_error (h : b.Stands host) (hw : b.Writes host step act)
    (hstep : step.1 = .ok a)
    (hcall : ∀ backup, call { b with backup := backup } host =
      ({ b with backup := backup } : Backed).both host step act) (fate : Fate) {e : Failure}
    (herror : (b.under host fate call).1 = .error e) :
    ∃ host', (b.under host fate call).2 = ({ b with memory := step.2.2 }, host') ∧
      host'.heap = step.2.1 ∧ b.backup.Unchanged { host with heap := step.2.1 } host' := by
  cases fate with
  | fails begun =>
    exact ⟨_, hw.under_fails begun (hcall .broken), b.backup.heap_leave _ begun,
      b.backup.unchanged_leave _ begun⟩
  | works =>
    have hstands := (h.withMemory hw.spares hw.holds).1
    have hworks : b.under host .works call = b.both host step act := hcall b.backup
    rw [hworks] at herror ⊢
    rcases both_cases b host step act with ⟨a', -, hstep', hboth⟩ | ⟨-, hboth⟩
    · rw [hboth] at herror ⊢
      cases hact : (act b.backup { host with heap := step.2.1 }).1 with
      | ok u =>
        rw [hact] at herror
        cases herror
      | error e' =>
        rcases hw.failed a' hstep' b.backup host.disk e' hstands.backup hact with
          ⟨hstore, hheap, hkept⟩
        exact ⟨_, by rw [hstore], hheap, hkept⟩
    · rw [hboth, hstep] at herror
      cases herror

/-- A write that the memory takes fails cleanly: the backup is as it was, and the
memory as after one that succeeds. -/
theorem Stands.failsCleanly (h : b.Stands host) (hw : b.Writes host step act)
    (hmode : b.mode = .synchronous) (hstep : step.1 = .ok a)
    (hcall : ∀ backup disk,
      call { b with backup := backup } { host with disk := disk } =
        ({ b with backup := backup } : Backed).both { host with disk := disk } step act) :
    b.FailsCleanly host call := by
  intro fate e herror
  rcases h.under_of_error hw hstep (hcall · host.disk) fate herror with
    ⟨host', hafter, hheap, hkept⟩
  rw [hafter]
  refine ⟨rfl, (h.withMemory hw.spares hw.holds).2.trans hkept, fun fate' disk a' hok => ?_⟩
  have hstands : b.Stands { host with disk := disk } := h.of_heap_eq rfl
  have hwrites : b.Writes { host with disk := disk } step act :=
    ⟨hw.spares, hw.holds, hw.taken, hw.failed, hw.broken⟩
  rcases hstands.sameMemory_under hwrites hmode hstep (hcall · disk) fate' hok with
    ⟨hmemory, hcells⟩
  refine ⟨hmemory, fun x hx => ?_⟩
  rw [hheap]
  exact hcells x hx

end Taken

end

/-- Updates in any cells are such a write. -/
theorem Stands.writes_add (h : b.Stands host) (hvalid : ∀ x ∈ hs, x.index < host.heap.size) :
    b.Writes host (b.memory.add host.heap hs) (Store.add · · hs) := by
  rcases h.memory with ⟨c, hholds, hc⟩
  rcases hholds.exists_add hc hvalid with ⟨c', hholds', hc', hspares⟩
  have hvalid' : ∀ x ∈ hs, x.index < (b.memory.add host.heap hs).2.1.size := fun x hx =>
    Nat.lt_of_lt_of_le (hvalid x hx) (Memory.size_le_add host.heap b.memory hs)
  refine ⟨hspares, ⟨c', hholds', hc'⟩, fun s disk hs' => hs'.add hvalid', ?_, fun _ => rfl⟩
  intro answers hadd s disk e hs' herror
  exact hs'.add_of_error hvalid' (hholds.isFinite_of_add hc hvalid hadd) herror

/-- A snapshot is such a write. -/
theorem Stands.writes_restore (h : b.Stands host) (s : Snapshot) :
    b.Writes host (b.memory.restore host.heap s) (Store.restore · · s) :=
  ⟨Memory.spares_restore host.heap b.memory s, Memory.exists_holds_restore h.memory s,
    fun t _ ht => ⟨ht.restore s, Session.spares_restore ⟨t, _⟩ s⟩,
    fun _ _ _ _ _ _ herror => Store.restore_of_error herror, fun _ => rfl⟩

/-! ## Calls that copy a layer -/

theorem leftAlone_leave (b : Backed) (host : Host) (begun : Option Utf8.Bytes) :
    b.LeftAlone host (b, b.backup.leave host begun) :=
  ⟨rfl, b.backup.heap_leave host begun, b.backup.unchanged_leave host begun⟩

/-- A backup that fails, by itself or not, changes nothing. -/
theorem leftAlone_createBackup (fate : Fate) {e : Failure}
    (herror : (b.under host fate createBackup).1 = .error e) :
    b.LeftAlone host (b.under host fate createBackup).2 := by
  cases fate with
  | fails begun => exact b.leftAlone_leave host begun
  | works =>
    have hresult : (b.backup.restore host (b.memory.snapshot host.heap)).1 = .error e := herror
    rcases Store.restore_of_error hresult with ⟨hstore, hheap, hkept⟩
    exact ⟨congrArg (fun s => ({ b with backup := s } : Backed)) hstore, hheap, hkept⟩

/-- A backup that succeeds gives what the memory does. -/
theorem Stands.snapshot_createBackup (h : b.Stands host) (hok : (b.createBackup host).1 = .ok ()) :
    ((b.createBackup host).2.1.backup.snapshot (b.createBackup host).2.2).1 =
      .ok (b.backup.reads (b.memory.snapshot host.heap)) := by
  rcases h.memory with ⟨c, hholds, hc⟩
  rcases hc.parse_ofMetrics with ⟨ms, hparse, hms, hsame⟩
  have hcontent := hholds.snapshot_eq
  rw [← hcontent] at hparse
  have hgives := h.backup.snapshot_restore hparse hok
  rw [← hsame.ofMetrics_eq hc.distinct hms.distinct, ← hcontent] at hgives
  exact hgives

/-- To take a backup leaves memory as it was. -/
theorem Stands.createBackup (h : b.Stands host) :
    (b.createBackup host).2.1.Stands (b.createBackup host).2.2 ∧
      SameMemory (b, host) (b.createBackup host).2 :=
  h.withBackup (Session.spares_restore ⟨b.backup, host⟩ (b.memory.snapshot host.heap))
    (h.backup.restore _)

/-- A load that fails changes nothing, and one that succeeds leaves the memory with
what was loaded. -/
theorem Stands.restoreFromBackup (h : b.Stands host) :
    (b.restoreFromBackup host).2.1.Stands (b.restoreFromBackup host).2.2 ∧
      ∀ e, (b.restoreFromBackup host).1 = .error e →
        b.LeftAlone host (b.restoreFromBackup host).2 := by
  have hheap := b.backup.heap_snapshot host
  have hkept := b.backup.unchanged_snapshot host
  unfold Backed.restoreFromBackup
  rcases hsnapshot : b.backup.snapshot host with ⟨result, host'⟩
  rw [hsnapshot] at hheap hkept
  have hstands : b.Stands host' := h.of_heap_eq hheap
  cases result with
  | error e => exact ⟨hstands, fun _ _ => ⟨rfl, hheap, hkept⟩⟩
  | ok s =>
    cases hparse : s.parse with
    | error e =>
      simp only [Memory.restore_of_error host'.heap b.memory hparse]
      exact ⟨hstands, fun _ _ => ⟨rfl, hheap, hkept⟩⟩
    | ok ms =>
      have hspares := Memory.spares_restore host'.heap b.memory s
      rcases Memory.restore_of_parse host'.heap b.memory hparse with
        ⟨heap, memory, hrestore, hholds⟩
      rw [hrestore] at hspares
      simp only [hrestore]
      refine ⟨(hstands.withMemory hspares ⟨ms, hholds, Snapshot.sound_of_parse hparse⟩).1, ?_⟩
      intro e herror
      cases herror

/-! ## Histories -/

/-- Whatever fails, the memory holds some metrics, over a backup with cells of its
own. -/
theorem Endured.stands (h : Endured b host) : b.Stands host := by
  induction h with
  | @start backup host mode found =>
    exact ⟨⟨[], Memory.holds_empty host.heap, Content.sound_nil⟩, found, fun x hx => by cases hx⟩
  | outside disk _ ih => exact ih.of_heap_eq rfl
  | alloc m _ ih => exact ih.congr fun x n hget => Heap.get?_alloc hget m
  | add fate _ valid ih =>
    exact ih.under (ih.writes_add valid) (fun _ => add_eq_both _ _ _) fate
  | restore s fate _ ih =>
    exact ih.under (ih.writes_restore s) (fun _ => restore_eq_both _ _ _) fate
  | @createBackup b host fate _ ih =>
    cases fate with
    | works => exact ih.createBackup.1
    | fails begun => exact ih.of_heap_eq (b.backup.heap_leave host begun)
  | @restoreFromBackup b host fate _ ih =>
    cases fate with
    | works => exact ih.restoreFromBackup.1
    | fails begun => exact ih.of_heap_eq (b.backup.heap_leave host begun)

/-- After any calls failures do no harm, and the next backup that succeeds is
complete. -/
theorem Endured.heals (h : Endured b host) : b.Heals host := by
  have hstands := h.stands
  constructor
  · intro fate e herror
    exact leftAlone_createBackup fate herror
  · intro fate e herror
    cases fate with
    | fails begun => exact b.leftAlone_leave host begun
    | works => exact hstands.restoreFromBackup.2 e herror
  · intro hmode hs answers hvalid hadd
    exact hstands.failsCleanly (hstands.writes_add hvalid) hmode hadd fun backup disk =>
      add_eq_both _ _ _
  · intro hmode s ms hparse
    rcases Memory.restore_of_parse host.heap b.memory hparse with ⟨heap, m, hrestore, -⟩
    refine hstands.failsCleanly (a := ()) (hstands.writes_restore s) hmode ?_ fun backup disk =>
      restore_eq_both _ _ _
    rw [hrestore]
  · intro fate hok
    cases fate with
    | fails begun => cases hok
    | works => exact ⟨hstands.createBackup.2, hstands.snapshot_createBackup hok⟩

/-- A metrics file whose store takes a total while the file cannot be written, and
is left with a draft that was begun; the backup after that is complete. -/
theorem heals_after_failing_write :
    let host := ((Host.ofDisk (Disk.withDirectory ["data"])).alloc ⟨"polls", .total (.clamp 5)⟩).2
    let b := Backed.«over» (.file ⟨"/data/metrics"⟩) .synchronous
    let missed := b.under host (.fails (some [91])) (add · · [⟨0⟩])
    let healed := missed.2.1.under missed.2.2 .works createBackup
    missed.1 = .error Store.onFire ∧
      (healed.2.1.backup.snapshot healed.2.2).1 =
        .ok (missed.2.1.backup.reads (missed.2.1.memory.snapshot missed.2.2.heap)) := by
  intro host b missed healed
  have hstart : Endured b host := .alloc _ (.start .synchronous trivial)
  have hvalid : ∀ x ∈ [(⟨0⟩ : Handle)], x.index < host.heap.size := by decide
  have hmissed : Endured missed.2.1 missed.2.2 := hstart.add (.fails (some [91])) hvalid
  have hfailed : missed.1 = .error Store.onFire := by decide +kernel
  have hok : healed.1 = .ok () := by decide +kernel
  -- The rest depends on the failed call only by what is known of it.
  clear_value missed
  rcases hmissed.heals.completes .works hok with ⟨-, hcomplete⟩
  exact ⟨hfailed, hcomplete⟩

end

end Backed

end MetricRelay
