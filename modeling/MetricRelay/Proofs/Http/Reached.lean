import MetricRelay.Proofs.Http.Startup
import MetricRelay.Proofs.Store.Keeping

/-!
# States of a server

Whatever a server is built over and whatever happens to it, its memory holds finite
values, each in a cell of its own under a key of its own.  Requests, calls of its
store, backups and loads keep that, also where the backup fails, and so does a start:
the next process finds any disk.

Main definition:

- `Server.Reached`: a server that was built over some backup, after anything.

Main results:

- `Server.Reached.keeps`: what holds at every point.
- `Server.reached_of_start`: a server that is started, for the first time or again.
-/

namespace MetricRelay

open Http (Request Response Target)

/-! ## What a server keeps -/

namespace Server

/-- A server that was built over some backup, and its host, after any requests, any calls
of its store, with any cells of clients, and any backups and loads.  Others do to the
disk what they like. -/
inductive Reached : Server → Host → Prop
  | built {config : Config.Server} {backup : Store} {s : Server} {host : Host}
      (found : backup.IsBackup host ∨ backup.IsIdle) (built : withBackup config backup = .ok s) :
      Reached s host
  | answer {s : Server} {host : Host} (r : Request) (before : Reached s host) :
      Reached (s.answer host r).2.1 (s.answer host r).2.2
  | alloc {s : Server} {host : Host} (m : Metric) (before : Reached s host) :
      Reached s (host.alloc m).2
  | add {s : Server} {host : Host} {hs : List Handle} (before : Reached s host)
      (valid : ∀ x ∈ hs, x.index < host.heap.size) :
      Reached (s.withStore (s.store.add host hs).2.1) (s.store.add host hs).2.2
  | restore {s : Server} {host : Host} (content : Snapshot) (before : Reached s host) :
      Reached (s.withStore (s.store.restore host content).2.1) (s.store.restore host content).2.2
  | createBackup {s : Server} {host : Host} (before : Reached s host) :
      Reached (s.createBackup host).2.1 (s.createBackup host).2.2
  | restoreFromBackup {s : Server} {host : Host} (before : Reached s host) :
      Reached (s.restoreFromBackup host).2.1 (s.restoreFromBackup host).2.2
  | outside {s : Server} {host : Host} (disk : Disk) (before : Reached s host) :
      Reached s { host with disk := disk }

section

variable {s : Server} {host : Host}

/-- Messages are taken, or not. -/
theorem keeps_update (h : s.store.Keeps host) (messages : List Message) :
    (s.service.update host messages).2.1.store.Keeps (s.service.update host messages).2.2 := by
  unfold Service.update
  cases (s.service.signer.fromMessages messages).mapError Failure.asConversion with
  | error e => exact h
  | ok metrics =>
    have hgrown : s.store.Keeps (host.allocAll metrics).2 :=
      h.congr fun x n hget => Heap.get?_allocAll hget metrics
    have hvalid : ∀ x ∈ (host.allocAll metrics).1,
        x.index < (host.allocAll metrics).2.heap.size := fun x hx =>
      Heap.index_lt_of_mem_allocAll hx
    have hadd := hgrown.add hvalid
    simp only
    rcases hstore : Storage.add s.service.store (host.allocAll metrics).2
      (host.allocAll metrics).1 with ⟨result, store, host'⟩
    have hstore' : s.store.add (host.allocAll metrics).2 (host.allocAll metrics).1 =
        (result, store, host') := hstore
    rw [hstore'] at hadd
    cases result with
    | error e => exact hadd
    | ok answers => exact hadd

/-- Whatever happens, the memory of a server holds some metrics. -/
theorem Reached.keeps (h : Reached s host) : s.store.Keeps host := by
  induction h with
  | @built config backup s host found built =>
    rw [withBackup_eq] at built
    cases hsubnet : subnetOf config with
    | error e =>
      rw [hsubnet] at built
      cases built
    | ok subnet =>
      rw [hsubnet] at built
      cases built
      have hmemory : ∃ c : Content, Memory.Holds host.heap .empty c ∧ c.Sound :=
        ⟨[], Memory.holds_empty host.heap, Content.sound_nil⟩
      rcases found with hbackup | hidle
      · exact .backed ⟨hmemory, hbackup, fun x hx => by cases hx⟩
      · exact .alone hidle hmemory
  | answer r _ ih =>
    exact answer_keeps (P := fun s host => s.store.Keeps host) ih (keeps_update ih) r
  | alloc m _ ih => exact ih.congr fun x n hget => Heap.get?_alloc hget m
  | add _ valid ih => exact ih.add valid
  | restore content _ ih => exact ih.restore content
  | createBackup _ ih => exact ih.createBackup
  | restoreFromBackup _ ih => exact ih.restoreFromBackup
  | outside disk _ ih => exact ih.congr fun _ _ hget => hget

/-- The backup of a configuration is one, or does nothing. -/
theorem found_of_backupOf {config : Config.Server} {disk disk' : Disk} {backup : Store}
    (h : backupOf config disk = (.ok backup, disk')) (host : Host) :
    backup.IsBackup host ∨ backup.IsIdle := by
  unfold backupOf at h
  split at h
  · rename_i name _
    cases hconnect : Database.connect disk name with
    | mk result disk'' =>
      rw [hconnect] at h
      cases result with
      | error e => cases h
      | ok d =>
        cases h
        exact .inl trivial
  · cases h
    exact .inl trivial
  · cases h
    exact .inr trivial

/-- A server that was started, on whatever host, is reached: the first process of a
configuration, or one that finds what others have left. -/
theorem reached_of_start {config : Config.Server} {log : List LogLine} {host' : Host}
    (h : start config host = (.ok s, log, host')) : Reached s host' := by
  rcases start_eq_ok h with ⟨built, opened, hbuild, hconfig, hload⟩
  rcases build_eq_ok hbuild with ⟨backup, subnet, hbackup, -, hsubnet, rfl⟩
  have hbuilt : withBackup config backup = .ok (fresh config backup subnet) := by
    rw [withBackup_eq, hsubnet]
    rfl
  have hreached : Reached (fresh config backup subnet) opened :=
    .built (found_of_backupOf hbackup opened) hbuilt
  have hrestored := hreached.restoreFromBackup
  unfold load at hload
  split at hload
  · split at hload
    · rename_i hrestore
      rw [hrestore] at hrestored
      cases hload
      exact hrestored
    · rename_i hrestore
      rw [hrestore] at hrestored
      cases hload
      exact hrestored
  · cases hload
    exact hreached

end

end Server

end MetricRelay
