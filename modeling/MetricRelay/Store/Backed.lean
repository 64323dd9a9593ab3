import MetricRelay.Schedule
import MetricRelay.Store.Basic

/-!
# A store with a backup

Metrics are served from memory, and a second store keeps a durable copy of them.  In synchronous
mode every write goes to both; otherwise the copy is refreshed from time to time.

Main definitions:

- `SyncMode` and `Backed`.
- `Backed.createBackup` and `Backed.restoreFromBackup`: the content of one layer becomes that of the
  other.
- `Backed.backups` and `Backed.refresh`: when the copy is refreshed, and what is done then.
-/

namespace MetricRelay

/-- How writes reach the backup. -/
inductive SyncMode where
  | synchronous
  | asynchronous
  deriving DecidableEq

namespace SyncMode

/-- The mode for a number of seconds between two backups; without any, every write is one. -/
def ofInterval (seconds : Nat) : SyncMode :=
  if seconds = 0 then synchronous else asynchronous

/-- The name of a mode. -/
def name : SyncMode → String
  | synchronous => "Synchronous"
  | asynchronous => "Asynchronous"

end SyncMode

/-- A store in memory and its backup. -/
structure Backed where
  memory : Memory
  backup : Store
  mode : SyncMode

namespace Backed

/-- Nothing in memory, and some backup. -/
def «over» (backup : Store) (mode : SyncMode) : Backed := ⟨.empty, backup, mode⟩

/-- Add updates to the memory, and in synchronous mode then to the backup. -/
def add (b : Backed) (host : Host) (hs : List Handle) : Outcome (List Handle) × Backed × Host :=
  let (result, heap, memory) := b.memory.add host.heap hs
  let host := { host with heap := heap }
  let b := { b with memory := memory }
  match b.mode, result with
  | .synchronous, .ok answers =>
    let (copied, backup, host) := b.backup.add host hs
    (copied.map fun _ => answers, { b with backup := backup }, host)
  | _, result => (result, b, host)

/-- The cell of a key. -/
def get (b : Backed) (host : Host) (key : Key) : Outcome Handle × Host := (b.memory.get key, host)

/-- The snapshot of the memory. -/
def snapshot (b : Backed) (host : Host) : Outcome Snapshot × Host :=
  (.ok (b.memory.snapshot host.heap), host)

/-- Replace the content of the memory, and in synchronous mode then that of the backup. -/
def restore (b : Backed) (host : Host) (s : Snapshot) : Outcome Unit × Backed × Host :=
  let (result, heap, memory) := b.memory.restore host.heap s
  let host := { host with heap := heap }
  let b := { b with memory := memory }
  match b.mode, result with
  | .synchronous, .ok () =>
    let (copied, backup, host) := b.backup.restore host s
    (copied, { b with backup := backup }, host)
  | _, result => (result, b, host)

/-- Look whether the backup works. -/
def ping (b : Backed) (host : Host) : Outcome Unit := b.backup.ping host

instance : Storage Backed where
  add := add
  get := get
  snapshot := snapshot
  restore := restore
  ping := ping

/-- Replace the content of the backup by that of the memory. -/
def createBackup (b : Backed) (host : Host) : Outcome Unit × Backed × Host :=
  let (result, backup, host) := b.backup.restore host (b.memory.snapshot host.heap)
  (result, { b with backup := backup }, host)

/-- Replace the content of the memory by that of the backup. -/
def restoreFromBackup (b : Backed) (host : Host) : Outcome Unit × Backed × Host :=
  match b.backup.snapshot host with
  | (.error e, host) => (.error e, b, host)
  | (.ok s, host) =>
    let (result, heap, memory) := b.memory.restore host.heap s
    (result, { b with memory := memory }, { host with heap := heap })

/-- The backups in asynchronous mode, with a period in milliseconds: the first after a whole
period, and periods that were missed are made up for. -/
def backups (period : Nat) (positive : 0 < period) : Cycle :=
  .starting period period positive .makeUp

/-- What is done in every period; a backup that fails is left for the next one to make good. -/
def refresh (s : Backed × Host) : Nat × (Backed × Host) := (0, (s.1.createBackup s.2).2)

end Backed

end MetricRelay
