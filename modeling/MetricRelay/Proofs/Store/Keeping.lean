import MetricRelay.Proofs.Store.Healing

/-!
# What a store with a backup keeps

Over whatever backup, the memory of a store holds finite values, each in a cell of its
own under a key of its own.  Calls keep that, also where the backup fails or does
nothing.  In asynchronous mode only a backup that is made reaches the backup; updates
and snapshots that are restored leave it alone.

Main definitions:

- `Store.IsIdle`: a backup that does nothing.
- `Backed.Keeps`: the memory holds some metrics, whatever the backup is.
- `Backed.LeavesBackup`: a call after which the backup has what it had.
- `Store.gives`: what a store gives back of a snapshot that it took.

Main results:

- `Backed.Keeps.add` and the like: what one call keeps.
- `Backed.Keeps.add_leavesBackup` and `Backed.Keeps.restore_leavesBackup`: calls in
  asynchronous mode.
- `Backed.Keeps.snapshot_createBackup`: what a backup has after it was made.
-/

namespace MetricRelay

/-! ## Backups that do nothing -/

namespace Store

/-- A backup that does nothing, or whose every call fails. -/
def IsIdle : Store → Prop
  | disabled | broken => True
  | memory _ | file _ | database _ => False

variable {s : Store}

/-- Updates do nothing to an idle store. -/
theorem IsIdle.add (h : s.IsIdle) (host : Host) (hs : List Handle) :
    (s.add host hs).2 = (s, host) := by
  cases s with
  | memory m => exact absurd h id
  | disabled => rfl
  | file f => exact absurd h id
  | database d => exact absurd h id
  | broken => rfl

/-- A restore does nothing to an idle store. -/
theorem IsIdle.restore (h : s.IsIdle) (host : Host) (content : Snapshot) :
    (s.restore host content).2 = (s, host) := by
  cases s with
  | memory m => exact absurd h id
  | disabled => rfl
  | file f => exact absurd h id
  | database d => exact absurd h id
  | broken => rfl

/-- An idle store gives the same wherever it is. -/
theorem IsIdle.unchanged (h : s.IsIdle) (host host' : Host) : s.Unchanged host host' := by
  cases s with
  | memory m => exact absurd h id
  | disabled => trivial
  | file f => exact absurd h id
  | database d => exact absurd h id
  | broken => trivial

/-- What a store gives back of a snapshot that it took; one that is disabled keeps
nothing. -/
def gives (s : Store) (content : Snapshot) : Snapshot :=
  match s with
  | disabled => .empty
  | memory _ | file _ | database _ | broken => s.reads content

/-- A restore does not change what kind of values a store gives. -/
theorem gives_restore (s : Store) (host : Host) (content : Snapshot) :
    (s.restore host content).2.1.gives = s.gives := by
  cases s <;> rfl

end Store

/-! ## What a store keeps -/

namespace Backed

/-- The memory holds some metrics, over a backup with cells of its own or one that
does nothing. -/
inductive Keeps (b : Backed) (host : Host) : Prop where
  | backed (stands : b.Stands host)
  | alone (idle : b.backup.IsIdle)
      (memory : ∃ c : Content, Memory.Holds host.heap b.memory c ∧ c.Sound)

section

variable {α β : Type} {b : Backed} {host : Host}

/-- What memory keeps are sound contents. -/
theorem Keeps.memory (h : b.Keeps host) :
    ∃ c : Content, Memory.Holds host.heap b.memory c ∧ c.Sound := by
  cases h with
  | backed stands => exact stands.memory
  | alone idle memory => exact memory

/-- Layers are kept where the cells that were there are still as they were. -/
theorem Keeps.congr (h : b.Keeps host) {host' : Host}
    (hkeep : ∀ x n, host.heap.get? x = some n → host'.heap.get? x = some n) : b.Keeps host' := by
  cases h with
  | backed stands => exact .backed (stands.congr hkeep)
  | alone idle memory =>
    rcases memory with ⟨c, hholds, hc⟩
    exact .alone idle ⟨c, hholds.congr fun x _ => hkeep x, hc⟩

/-- A write over a backup that does nothing is its part in memory. -/
theorem both_of_idle (step : Outcome α × Heap × Memory)
    {act : Store → Host → Outcome β × Store × Host}
    (hact : ∀ host, (act b.backup host).2 = (b.backup, host)) :
    (b.both host step act).2 = ({ b with memory := step.2.2 }, { host with heap := step.2.1 }) := by
  rcases both_cases b host step act with ⟨a, -, -, hboth⟩ | ⟨-, hboth⟩
  · rw [hboth]
    simp only [hact]
  · rw [hboth]

/-- Whatever cells are added, the memory holds some metrics. -/
theorem Keeps.add (h : b.Keeps host) {hs : List Handle}
    (hvalid : ∀ x ∈ hs, x.index < host.heap.size) :
    (b.add host hs).2.1.Keeps (b.add host hs).2.2 := by
  rw [add_eq_both]
  cases h with
  | backed stands => exact .backed (stands.both (stands.writes_add hvalid))
  | alone idle memory =>
    rcases memory with ⟨c, hholds, hc⟩
    -- The memory may take some of the cells before one that it refuses.
    rcases hholds.exists_add hc hvalid with ⟨c', hholds', hc', -⟩
    rw [both_of_idle _ fun host => idle.add host hs]
    exact .alone idle ⟨c', hholds', hc'⟩

/-- Whatever snapshot is restored, the memory holds some metrics. -/
theorem Keeps.restore (h : b.Keeps host) (content : Snapshot) :
    (b.restore host content).2.1.Keeps (b.restore host content).2.2 := by
  rw [restore_eq_both]
  cases h with
  | backed stands => exact .backed (stands.both (stands.writes_restore content))
  | alone idle memory =>
    rw [both_of_idle _ fun host => idle.restore host content]
    exact .alone idle (Memory.exists_holds_restore memory content)

/-- Whatever becomes of a backup that is made, the memory holds some metrics. -/
theorem Keeps.createBackup (h : b.Keeps host) :
    (b.createBackup host).2.1.Keeps (b.createBackup host).2.2 := by
  cases h with
  | backed stands => exact .backed stands.createBackup.1
  | alone idle memory =>
    unfold Backed.createBackup
    simp only [idle.restore]
    exact .alone idle memory

/-- Whatever is loaded, the memory holds some metrics. -/
theorem Keeps.restoreFromBackup (h : b.Keeps host) :
    (b.restoreFromBackup host).2.1.Keeps (b.restoreFromBackup host).2.2 := by
  cases h with
  | backed stands => exact .backed stands.restoreFromBackup.1
  | alone idle memory =>
    have hheap := b.backup.heap_snapshot host
    unfold Backed.restoreFromBackup
    rcases hsnapshot : b.backup.snapshot host with ⟨result, host'⟩
    rw [hsnapshot] at hheap
    have hmemory : ∃ c : Content, Memory.Holds host'.heap b.memory c ∧ c.Sound := hheap ▸ memory
    cases result with
    | error e => exact .alone idle hmemory
    | ok s => exact .alone idle (Memory.exists_holds_restore hmemory s)

/-! ## Calls that leave the backup alone -/

/-- A call kept the mode, and the backup has what it had. -/
structure LeavesBackup (b : Backed) (host : Host) (after : Backed × Host) : Prop where
  mode : after.1.mode = b.mode
  store : after.1.backup = b.backup
  backup : b.backup.Unchanged host after.2

theorem LeftAlone.leavesBackup {after : Backed × Host} (h : b.LeftAlone host after) :
    b.LeavesBackup host after :=
  ⟨congrArg mode h.store, congrArg Backed.backup h.store, h.backup⟩

/-- A backup that is left gives the same snapshot. -/
theorem LeavesBackup.snapshot_eq {after : Backed × Host} (h : b.LeavesBackup host after) :
    (after.1.backup.snapshot after.2).1 = (b.backup.snapshot host).1 := by
  rw [h.store]
  exact h.backup.snapshot_eq

/-- In asynchronous mode a write is its part in memory. -/
theorem both_of_asynchronous (hmode : b.mode = .asynchronous) (step : Outcome α × Heap × Memory)
    (act : Store → Host → Outcome β × Store × Host) :
    b.both host step act =
      (step.1, { b with memory := step.2.2 }, { host with heap := step.2.1 }) := by
  unfold both
  rw [hmode]

/-- In asynchronous mode a step of both layers leaves the backup. -/
theorem Keeps.both_leavesBackup (h : b.Keeps host) (hmode : b.mode = .asynchronous)
    {step : Outcome α × Heap × Memory} {act : Store → Host → Outcome β × Store × Host}
    (hwrites : b.Stands host → b.Writes host step act) :
    b.LeavesBackup host (b.both host step act).2 := by
  rw [both_of_asynchronous hmode]
  refine ⟨rfl, rfl, ?_⟩
  cases h with
  | backed stands => exact (stands.withMemory (hwrites stands).spares (hwrites stands).holds).2
  | alone idle memory => exact idle.unchanged _ _

/-- In asynchronous mode updates leave the backup. -/
theorem Keeps.add_leavesBackup (h : b.Keeps host) (hmode : b.mode = .asynchronous)
    {hs : List Handle} (hvalid : ∀ x ∈ hs, x.index < host.heap.size) :
    b.LeavesBackup host (b.add host hs).2 := by
  rw [add_eq_both]
  exact h.both_leavesBackup hmode fun stands => stands.writes_add hvalid

/-- In asynchronous mode a restore leaves the backup. -/
theorem Keeps.restore_leavesBackup (h : b.Keeps host) (hmode : b.mode = .asynchronous)
    (content : Snapshot) : b.LeavesBackup host (b.restore host content).2 := by
  rw [restore_eq_both]
  exact h.both_leavesBackup hmode fun stands => stands.writes_restore content

/-- Cells of others do not matter to the backup. -/
theorem Keeps.alloc_leavesBackup (h : b.Keeps host) (m : Metric) :
    b.LeavesBackup host (b, (host.alloc m).2) := by
  refine ⟨rfl, rfl, ?_⟩
  cases h with
  | backed stands =>
    refine Store.unchanged_of_cells rfl fun x hx => ?_
    rcases stands.backup.exists_get? hx with ⟨n, hget⟩
    rw [hget]
    exact Heap.get?_alloc hget m
  | alone idle memory => exact idle.unchanged _ _

/-! ## Backups that are made -/

/-- A backup that succeeds gives what the memory does, as far as it keeps it. -/
theorem Keeps.snapshot_createBackup (h : b.Keeps host) (hok : (b.createBackup host).1 = .ok ()) :
    ((b.createBackup host).2.1.backup.snapshot (b.createBackup host).2.2).1 =
      .ok (b.backup.gives (b.memory.snapshot host.heap)) := by
  rcases b with ⟨memory, backup, mode⟩
  cases h with
  | backed stands =>
    have hgives := stands.snapshot_createBackup hok
    have hbackup := stands.backup
    cases backup with
    | memory m => exact hgives
    | disabled => exact absurd hbackup id
    | file f => exact hgives
    | database d => exact hgives
    | broken => exact absurd hbackup id
  | alone idle _ =>
    cases backup with
    | memory m => exact absurd idle id
    | disabled => rfl
    | file f => exact absurd idle id
    | database d => exact absurd idle id
    | broken => cases hok

/-- Whatever becomes of a backup, the memory holds some metrics. -/
theorem Keeps.under_createBackup (h : b.Keeps host) (fate : Fate) :
    (b.under host fate Backed.createBackup).2.1.Keeps
      (b.under host fate Backed.createBackup).2.2 := by
  cases fate with
  | works => exact h.createBackup
  | fails begun =>
    refine h.congr fun x n hget => ?_
    show (b.backup.leave host begun).heap.get? x = some n
    rw [b.backup.heap_leave]
    exact hget

end

end Backed

end MetricRelay
