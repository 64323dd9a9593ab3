import MetricRelay.Store.Database
import MetricRelay.Store.File
import MetricRelay.Store.Host
import MetricRelay.Store.Memory

/-!
# Stores

A store takes updates, answers with the values afterwards, and can be read and replaced as a
snapshot.  There are stores in memory, in a file and in a database, one that keeps nothing, and one
whose every call fails.

Main definitions:

- `Storage`: what every store can do.
- `Store`: the stores of one layer.
-/

namespace MetricRelay

/-- What a store can do.  Each call is given the host, and returns the store and the host as they
are afterwards where it changes them, also if it fails. -/
class Storage (σ : Type) where
  /-- Add updates; each answer is a handle to the value right after its update. -/
  add : σ → Host → List Handle → Outcome (List Handle) × σ × Host
  /-- A handle to the metric of a key. -/
  get : σ → Host → Key → Outcome Handle × Host
  /-- The content as texts. -/
  snapshot : σ → Host → Outcome Snapshot × Host
  /-- Replace the content. -/
  restore : σ → Host → Snapshot → Outcome Unit × σ × Host
  /-- Look whether the store works. -/
  ping : σ → Host → Outcome Unit

/-- A store of one layer. -/
inductive Store where
  | memory (cells : Memory)
  | disabled
  | file (f : MetricsFile)
  | database (d : Database)
  | broken
  deriving DecidableEq

namespace Store

/-- Why a broken store fails. -/
def onFire : Failure := .storage "disk on fire"

/-- The answers of a store that is not in memory come in fresh cells. -/
def answer (result : Outcome (List Metric)) (host : Host) : Outcome (List Handle) × Host :=
  match result with
  | .error e => (.error e, host)
  | .ok ms =>
    let (hs, host) := host.allocAll ms
    (.ok hs, host)

/-- Add updates.  A store that keeps nothing answers with the very cells that it is given. -/
def add (s : Store) (host : Host) (hs : List Handle) : Outcome (List Handle) × Store × Host :=
  match s with
  | memory cells =>
    let (result, heap, cells) := cells.add host.heap hs
    (result, memory cells, { host with heap := heap })
  | disabled => (.ok hs, s, host)
  | file f =>
    let (result, disk) := f.add host.disk (host.getAll hs)
    let (result, host) := answer result { host with disk := disk }
    (result, s, host)
  | database d =>
    let (result, disk) := d.add host.disk (host.getAll hs)
    let (result, host) := answer result { host with disk := disk }
    (result, s, host)
  | broken => (.error onFire, s, host)

/-- A metric that was read comes in a fresh cell. -/
def found (result : Outcome Metric) (host : Host) : Outcome Handle × Host :=
  match result with
  | .error e => (.error e, host)
  | .ok m =>
    let (h, host) := host.alloc m
    (.ok h, host)

/-- A handle to the metric of a key; only the store in memory gives its own cell away. -/
def get (s : Store) (host : Host) (key : Key) : Outcome Handle × Host :=
  match s with
  | memory cells => (cells.get key, host)
  | disabled => (.error key.notFound, host)
  | file f => found (f.get host.disk key) host
  | database d =>
    let (result, disk) := d.get host.disk key
    found result { host with disk := disk }
  | broken => (.error onFire, host)

/-- The content as texts. -/
def snapshot (s : Store) (host : Host) : Outcome Snapshot × Host :=
  match s with
  | memory cells => (.ok (cells.snapshot host.heap), host)
  | disabled => (.ok .empty, host)
  | file f => (f.snapshot host.disk, host)
  | database d =>
    let (result, disk) := d.snapshot host.disk
    (result, { host with disk := disk })
  | broken => (.error onFire, host)

/-- Replace the content; a snapshot that is none of metrics is refused by all of them. -/
def restore (s : Store) (host : Host) (content : Snapshot) : Outcome Unit × Store × Host :=
  match s with
  | memory cells =>
    let (result, heap, cells) := cells.restore host.heap content
    (result, memory cells, { host with heap := heap })
  | disabled => (content.parse.map fun _ => (), s, host)
  | file f =>
    let (result, disk) := f.restore host.disk content
    (result, s, { host with disk := disk })
  | database d =>
    let (result, disk) := d.restore host.disk content
    (result, s, { host with disk := disk })
  | broken => (.error onFire, s, host)

/-- Look whether the store works. -/
def ping (s : Store) (host : Host) : Outcome Unit :=
  match s with
  | memory _ | disabled => .ok ()
  | file f => f.ping host.disk
  | database d => d.ping
  | broken => .error onFire

instance : Storage Store where
  add := add
  get := get
  snapshot := snapshot
  restore := restore
  ping := ping

end Store

end MetricRelay
