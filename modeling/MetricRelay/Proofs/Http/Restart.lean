import MetricRelay.Program
import MetricRelay.Proofs.Database.Reopening
import MetricRelay.Proofs.Http.Alike

/-!
# The server after a restart

A server that stops writes its memory to its backup, in synchronous mode with
every update and otherwise at the end.  The next process of the same configuration
finds the same backup and loads it.  What it answers from then on is what the server
would have answered that never stopped, except that a database has lost the sign of
zero.

Main definitions:

- `Server.Backs`: the backup of a configuration, found again on a disk.
- `Server.Running`: a server that backs up into a file or into a database in a file,
  after any requests and backups.
- `Server.Survives`: what its restart comes to.

Main results:

- `Server.Backs.rebuild`: the next process finds the same backup.
- `Server.Running.lasts`: both layers of a server that runs hold contents, the same
  ones in synchronous mode.
- `Server.survives_restart`: it survives a restart.
-/

namespace MetricRelay

open Http (Request Response Target)

namespace Server

/-! ## Backups that are found again -/

/-- The backup of a configuration, which is found again on a disk. -/
inductive Backs (config : Config.Server) (disk : Disk) : Store → Prop
  | file {path : String} (name : config.databaseName = none)
      (path_eq : config.filePath = some path) : Backs config disk (.file ⟨path⟩)
  | database {name path : String} {f : DatabaseFile} {create : Bool} {d : Database}
      (name_eq : config.databaseName = some name) (own : DatabaseName.isOwnMemory name = false)
      (named : d.IsNamed disk name path f create) : Backs config disk (.database d)

/-- A backup that outlives the process: a file, or a database in a file whose name
is not that of a database in memory. -/
def Outlives (config : Config.Server) : Store → Prop
  | .file _ => True
  | .database d =>
    d.file.isSome = true ∧ config.databaseName.any DatabaseName.isOwnMemory = false
  | .memory _ | .disabled | .broken => False

section

variable {config : Config.Server} {disk disk' : Disk} {store : Store} {host : Host}

/-- The backup that a configuration opens is found again by the same configuration. -/
theorem backs_of_backupOf (h : backupOf config disk = (.ok store, disk'))
    (houtlives : Outlives config store) : Backs config disk' store := by
  unfold backupOf at h
  cases hname : config.databaseName with
  | none =>
    rw [hname] at h
    cases hpath : config.filePath with
    | none =>
      rw [hpath] at h
      cases h
      exact absurd houtlives id
    | some path =>
      rw [hpath] at h
      cases h
      exact .file hname hpath
  | some name =>
    simp only [hname] at h
    rcases hconnect : Database.connect disk name with ⟨result, opened⟩
    rw [hconnect] at h
    cases result with
    | error e => cases h
    | ok d =>
      cases h
      rcases houtlives with ⟨hfile, hown⟩
      rcases Option.isSome_iff_exists.1 hfile with ⟨f, hf⟩
      rw [hname, Option.any_some] at hown
      rcases Database.isNamed_of_connect hown hconnect hf with ⟨path, create, hnamed⟩
      exact .database hname hown hnamed

/-- A backup that is found again outlives the process. -/
theorem Backs.outlives (h : Backs config disk store) : Outlives config store := by
  cases h with
  | file name path_eq => trivial
  | database name_eq own named =>
    refine ⟨?_, ?_⟩
    · rw [named.file]
      rfl
    · rw [name_eq]
      exact own

/-- The next process finds the same backup, with the same content. -/
theorem Backs.rebuild (h : Backs config disk store) {store' : Store}
    (hbackup : backupOf config disk = (.ok store', disk')) :
    store' = store ∧ Backs config disk' store ∧
      ∀ heap c, Session.Holds ⟨store, heap, disk⟩ c → Session.Holds ⟨store, heap, disk'⟩ c := by
  cases h with
  | file name path_eq =>
    unfold backupOf at hbackup
    rw [name, path_eq] at hbackup
    cases hbackup
    exact ⟨rfl, .file name path_eq, fun _ _ hholds => hholds⟩
  | @database name path f create d name_eq own named =>
    unfold backupOf at hbackup
    simp only [name_eq] at hbackup
    rcases hconnect : Database.connect disk name with ⟨result, opened⟩
    rw [hconnect] at hbackup
    cases result with
    | error e => cases hbackup
    | ok d' =>
      cases hbackup
      rcases named.reopen hconnect with ⟨rfl, rfl⟩
      refine ⟨rfl, .database name_eq own named.afterRead, fun heap c hholds => ?_⟩
      exact Database.Holds.afterRead hholds named.file

/-- A backup is found again, unless its name is one that only a single connection uses. -/
theorem Backs.exists_rebuild (h : Backs config disk store) {heap : Heap} {c : Content}
    (hholds : Session.Holds ⟨store, heap, disk⟩ c)
    (hsingle : config.databaseName.any DatabaseName.isSingle = false) :
    ∃ store' disk', backupOf config disk = (.ok store', disk') := by
  unfold backupOf
  cases h with
  | file name path_eq =>
    rw [name, path_eq]
    exact ⟨_, _, rfl⟩
  | @database name path f create d name_eq own named =>
    rw [name_eq, Option.any_some] at hsingle
    rcases named.exists_reopen hsingle (hholds.works f named.file).read with ⟨d', disk', hconnect⟩
    simp only [name_eq, hconnect]
    exact ⟨_, _, rfl⟩

/-! ## Calls of the backup -/

/-- Updates leave a backup where it is found again. -/
theorem Backs.add (h : Backs config host.disk store) (hs : List Handle) :
    Backs config (store.add host hs).2.2.disk (store.add host hs).2.1 := by
  cases h with
  | file name path_eq => exact .file name path_eq
  | @database name path f create d name_eq own named =>
    show Backs config (Store.answer _ _).2.disk (.database d)
    rw [Session.disk_answer]
    exact .database name_eq own (named.add (host.getAll hs))

/-- A restore leaves a backup where it is found again. -/
theorem Backs.restore (h : Backs config host.disk store) (content : Snapshot) :
    Backs config (store.restore host content).2.2.disk (store.restore host content).2.1 := by
  cases h with
  | file name path_eq => exact .file name path_eq
  | database name_eq own named => exact .database name_eq own (named.restore content)

/-- A restore does not make the backup another store. -/
theorem Backs.store_restore (h : Backs config disk store) (host : Host) (content : Snapshot) :
    (store.restore host content).2.1 = store := by
  cases h <;> rfl

/-- A read leaves a backup where it is found again, though it may create an empty file. -/
theorem Backs.snapshot (h : Backs config host.disk store) :
    Backs config (store.snapshot host).2.disk store := by
  cases h with
  | file name path_eq => exact .file name path_eq
  | database name_eq own named => exact .database name_eq own named.snapshot

end

/-! ## Calls of a store with a backup -/

section

variable {config : Config.Server} {b : Backed} {host : Host}

/-- Updates of both layers leave the backup where it is found again. -/
theorem Backs.add_backed (h : Backs config host.disk b.backup) (hs : List Handle) :
    Backs config (b.add host hs).2.2.disk (b.add host hs).2.1.backup := by
  rcases b with ⟨memory, backup, mode⟩
  rcases hadd : memory.add host.heap hs with ⟨result, heap, memory'⟩
  simp only [Backed.add, hadd]
  cases mode with
  | asynchronous => exact h
  | synchronous =>
    cases result with
    | error e => exact h
    | ok answers => exact @Backs.add config backup { host with heap := heap } h hs

/-- Taking a backup leaves it where it is found again. -/
theorem Backs.createBackup (h : Backs config host.disk b.backup) :
    Backs config (b.createBackup host).2.2.disk (b.createBackup host).2.1.backup :=
  h.restore (b.memory.snapshot host.heap)

/-- To take a backup does not make it another store. -/
theorem Backs.backup_createBackup (h : Backs config host.disk b.backup) :
    (b.createBackup host).2.1.backup = b.backup :=
  h.store_restore host (b.memory.snapshot host.heap)

/-- Loading a backup leaves it where it is found again. -/
theorem Backs.restoreFromBackup (h : Backs config host.disk b.backup) :
    Backs config (b.restoreFromBackup host).2.2.disk (b.restoreFromBackup host).2.1.backup := by
  have hread := h.snapshot
  unfold Backed.restoreFromBackup
  rcases hsnapshot : b.backup.snapshot host with ⟨result, host'⟩
  rw [hsnapshot] at hread
  cases result with
  | error e => exact hread
  | ok content => exact hread

/-- The messages of a request leave the backup where it is found again, taken or not. -/
theorem Backs.update {s : Service Backed} (h : Backs config host.disk s.store.backup)
    (messages : List Message) :
    Backs config (s.update host messages).2.2.disk (s.update host messages).2.1.store.backup := by
  unfold Service.update
  cases s.signer.fromMessages messages with
  | error e => exact h
  | ok metrics =>
    have hadd := @add_backed config s.store (host.allocAll metrics).2 h (host.allocAll metrics).1
    rcases hstore : s.store.add (host.allocAll metrics).2 (host.allocAll metrics).1 with
      ⟨result, b, host'⟩
    have hstorage : Storage.add s.store (host.allocAll metrics).2 (host.allocAll metrics).1 =
        (result, b, host') := hstore
    rw [hstore] at hadd
    simp only [Except.mapError, hstorage]
    cases result with
    | error e => exact hadd
    | ok answers => exact hadd

end

/-! ## Servers -/

/-- A server that backs up into a file or into a database in a file, which nobody
else touches.  It starts with a blank backup or loads one that holds metrics as
stores write them, and then takes requests and refreshes its backup. -/
inductive Running (config : Config.Server) : Server → Host → Prop
  | blank {s : Server} {host host' : Host} (built : build config host = (.ok s, host'))
      (outlives : Outlives config s.store.backup) (blank : s.store.backup.IsBlank host') :
      Running config s host'
  | loaded {s : Server} {host host' : Host} {d : Content}
      (built : build config host = (.ok s, host')) (outlives : Outlives config s.store.backup)
      (holds : Session.Holds ⟨s.store.backup, host'⟩ d) (sound : d.Sound) :
      Running config (s.restoreFromBackup host').2.1 (s.restoreFromBackup host').2.2
  | answered {s : Server} {host : Host} (r : Request) (before : Running config s host) :
      Running config (s.answer host r).2.1 (s.answer host r).2.2
  | backedUp {s : Server} {host : Host} (before : Running config s host) :
      Running config (s.createBackup host).2.1 (s.createBackup host).2.2

/-- Both layers of a server hold contents, the same ones in synchronous mode, its
backup is found again, and it is as its configuration says. -/
structure Lasts (config : Config.Server) (s : Server) (host : Host) : Prop where
  contents : ∃ c d, s.store.Layers host c d ∧ (s.store.mode = .synchronous → c.Same d)
  backs : Backs config host.disk s.store.backup
  signer : s.service.signer = .ofText? config.key
  subnet : subnetOf config = .ok s.subnet

section

variable {config : Config.Server} {s : Server} {host host' : Host}

/-- A server that was built is a fresh one over the backup and for the subnet of its
configuration. -/
theorem build_eq_ok (h : build config host = (.ok s, host')) :
    ∃ backup subnet, backupOf config host.disk = (.ok backup, host'.disk) ∧
      host'.heap = host.heap ∧ subnetOf config = .ok subnet ∧ s = fresh config backup subnet := by
  unfold build at h
  rcases hbackup : backupOf config host.disk with ⟨result, disk⟩
  rw [hbackup] at h
  cases result with
  | error e => cases h
  | ok backup =>
    rw [Prod.mk.injEq] at h
    rcases h with ⟨hserver, rfl⟩
    simp only [bind, Except.bind, withBackup_eq] at hserver
    cases hsubnet : subnetOf config with
    | error e =>
      rw [hsubnet] at hserver
      cases hserver
    | ok subnet =>
      rw [hsubnet] at hserver
      cases hserver
      exact ⟨backup, subnet, rfl, rfl, rfl, rfl⟩

/-- A server that was built has nothing in memory and its backup. -/
theorem layers_build (h : build config host = (.ok s, host'))
    (houtlives : Outlives config s.store.backup) {d : Content}
    (hholds : Session.Holds ⟨s.store.backup, host'⟩ d) (hd : d.Sound) :
    s.store.Layers host' [] d ∧ Backs config host'.disk s.store.backup ∧
      s.service.signer = .ofText? config.key ∧ subnetOf config = .ok s.subnet := by
  rcases build_eq_ok h with ⟨backup, subnet, hbackup, -, hsubnet, rfl⟩
  exact ⟨Backed.layers_over hholds hd _, backs_of_backupOf hbackup houtlives, rfl, hsubnet⟩

/-- A request adds the same updates to memory and to the backup, or none. -/
theorem Lasts.answer (h : Lasts config s host) (r : Request) :
    Lasts config (s.answer host r).2.1 (s.answer host r).2.2 := by
  refine answer_keeps h (fun messages => ?_) r
  rcases h.contents with ⟨c, d, hlayers, hsame⟩
  cases hmetrics : s.service.signer.fromMessages messages with
  | error e =>
    rw [Service.update_of_error hmetrics]
    exact h
  | ok metrics =>
    have hbacks := h.backs.update messages
    rcases Service.update_of_layers hlayers hmetrics with ⟨b, host', hupdate, hlayers', hmode⟩
    rw [hupdate] at hbacks ⊢
    refine ⟨⟨_, _, hlayers', fun hsync => ?_⟩, hbacks, h.signer, h.subnet⟩
    -- Each layer adds the updates to what it has itself, and both have the same.
    have hbefore : s.service.store.mode = .synchronous := hmode.symm.trans hsync
    rw [hbefore]
    exact ((hsame hbefore).add metrics).2

/-- A backup that is taken makes both layers agree. -/
theorem Lasts.createBackup (h : Lasts config s host) :
    Lasts config (s.createBackup host).2.1 (s.createBackup host).2.2 := by
  rcases h.contents with ⟨c, d, hlayers, -⟩
  rcases hlayers.createBackup with ⟨d', b, host', hcreate, hlayers', hsame, -⟩
  have hbacks := h.backs.createBackup
  unfold Server.createBackup
  rw [hcreate] at hbacks ⊢
  exact ⟨⟨c, d', hlayers', fun _ => hsame⟩, hbacks, h.signer, h.subnet⟩

/-- A server that runs lasts. -/
theorem Running.lasts (h : Running config s host) : Lasts config s host := by
  induction h with
  | blank built outlives blank =>
    rcases layers_build built outlives (Session.holds_of_isBlank blank) Content.sound_nil with
      ⟨hlayers, hbacks, hsigner, hsubnet⟩
    exact ⟨⟨[], [], hlayers, fun _ => Content.Same.refl []⟩, hbacks, hsigner, hsubnet⟩
  | @loaded s host host' d built outlives holds sound =>
    rcases layers_build built outlives holds sound with ⟨hlayers, hbacks, hsigner, hsubnet⟩
    rcases hlayers.restoreFromBackup with ⟨c', b, next, hrestore, hlayers', hsame, -⟩
    have hbacks' := hbacks.restoreFromBackup
    unfold Server.restoreFromBackup
    rw [hrestore] at hbacks' ⊢
    exact ⟨⟨c', _, hlayers', fun _ => hsame.symm⟩, hbacks', hsigner, hsubnet⟩
  | answered r _ ih => exact ih.answer r
  | backedUp _ ih => exact ih.createBackup

/-! ## Restarts -/

/-- A backup that is found again, and what it holds. -/
structure Found (config : Config.Server) (backup : Store) (host : Host) (d : Content) : Prop where
  holds : Session.Holds ⟨backup, host⟩ d
  sound : d.Sound
  backs : Backs config host.disk backup

/-- The next process finds a backup as it was left. -/
theorem Found.restarted {backup : Store} {d : Content} (h : Found config backup host d) :
    Found config backup host.restarted d := by
  refine ⟨h.holds.restarted ?_, h.sound, h.backs⟩
  rintro m rfl
  cases h.backs

/-- A server that is built over it has nothing in memory so far. -/
theorem Found.build {backup : Store} {d : Content} (h : Found config backup host d)
    (hbuild : Server.build config host = (.ok s, host')) :
    s.store.backup = backup ∧ s.store.Layers host' [] d ∧
      s.service.signer = .ofText? config.key ∧ subnetOf config = .ok s.subnet := by
  rcases build_eq_ok hbuild with ⟨backup', subnet, hbackup, hheap, hsubnet, rfl⟩
  rcases h.backs.rebuild hbackup with ⟨rfl, -, hkeep⟩
  have hholds : Session.Holds ⟨backup', host'⟩ d := by
    have hfound := hkeep host.heap d h.holds
    rw [← hheap] at hfound
    exact hfound
  exact ⟨rfl, Backed.layers_over hholds h.sound _, rfl, hsubnet⟩

/-- A server that found its backup runs once it has loaded it. -/
theorem Found.running {backup : Store} {d : Content} (h : Found config backup host d)
    (hbuild : Server.build config host = (.ok s, host')) :
    Running config (s.restoreFromBackup host').2.1 (s.restoreFromBackup host').2.2 := by
  rcases h.build hbuild with ⟨hbackup, hlayers, -⟩
  have houtlives := h.backs.outlives
  rw [← hbackup] at houtlives
  exact .loaded hbuild houtlives hlayers.backup h.sound

/-- A server that stops leaves a backup that holds what its memory does. -/
theorem Lasts.stop (h : Lasts config s host) :
    ∃ c d d', s.store.Layers host c d ∧ c.Same d' ∧ (s.stop host).1 = .ok () ∧
      Found config s.store.backup (s.stop host).2.2 d' := by
  rcases h.contents with ⟨c, d, hlayers, hsame⟩
  cases hmode : s.store.mode with
  | synchronous =>
    have hstop : s.stop host = (.ok (), s, host) := by
      unfold Server.stop
      rw [hmode]
    rw [hstop]
    exact ⟨c, d, d, hlayers, hsame hmode, rfl, hlayers.backup, hlayers.sound_backup, h.backs⟩
  | asynchronous =>
    have hstop : s.stop host = s.createBackup host := by
      unfold Server.stop
      rw [hmode]
    have hbacks := h.backs.createBackup
    have hbackup := h.backs.backup_createBackup
    rcases hlayers.createBackup with ⟨d', b, host', hcreate, hlayers', hsame', -⟩
    rw [hcreate] at hbacks hbackup
    rw [hstop, Server.createBackup, hcreate]
    rw [← hbackup]
    exact ⟨c, d, d', hlayers, hsame', rfl, hlayers'.backup, hlayers'.sound_backup, hbacks⟩

/-- A server that stops leaves a backup from which the next one goes on.  A server
of the same configuration can be built, unless its database has a name that only a
single connection uses.  It loads the backup and runs, and it answers whatever it is
asked but pings as the server that stopped would have done, if its cells showed what
its backup gives for them. -/
structure Survives (config : Config.Server) (s : Server) (host : Host) : Prop where
  stops : (s.stop host).1 = .ok ()
  builds : config.databaseName.any DatabaseName.isSingle = false →
    ∃ next, (build config (s.stop host).2.2.restarted).1 = .ok next
  loads : ∀ next host', build config (s.stop host).2.2.restarted = (.ok next, host') →
    (next.restoreFromBackup host').1 = .ok ()
  runs : ∀ next host', build config (s.stop host).2.2.restarted = (.ok next, host') →
    Running config (next.restoreFromBackup host').2.1 (next.restoreFromBackup host').2.2
  answers : ∀ next host', build config (s.stop host).2.2.restarted = (.ok next, host') →
    ∀ rs : List Request, (∀ r ∈ rs, Target.ofPath? r.path ≠ some .ping) →
      ((next.restoreFromBackup host').2.1.run (next.restoreFromBackup host').2.2 rs).1 =
        (s.run (s.store.backup.readHost host) rs).1

/-- A server that runs survives a restart. -/
theorem survives_restart (h : Running config s host) : s.Survives config host := by
  rcases h.lasts.stop with ⟨c, d, d', hlayers, hsame, hstop, hfound⟩
  have hnext := hfound.restarted
  refine ⟨hstop, fun hsingle => ?_, fun next host' hbuild => ?_,
    fun next host' hbuild => hnext.running hbuild, fun next host' hbuild rs hping => ?_⟩
  · rcases hnext.backs.exists_rebuild hnext.holds hsingle with ⟨backup, disk, hbackup⟩
    refine ⟨fresh config backup s.subnet, ?_⟩
    unfold build
    rw [hbackup]
    simp only [bind, Except.bind, withBackup_eq, h.lasts.subnet]
    rfl
  · rcases hnext.build hbuild with ⟨-, hlayers', -⟩
    rcases hlayers'.restoreFromBackup with ⟨c', b, host'', hrestore, -⟩
    unfold Server.restoreFromBackup
    rw [hrestore]
  · rcases hnext.build hbuild with ⟨hbackup, hlayers', hsigner, hsubnet⟩
    rcases hlayers'.restoreFromBackup with ⟨c', b, host'', hrestore, hlayers'', hsame', -⟩
    -- The new memory holds what the backup gives for its content, and so does the old
    -- one in the changed cells.
    have halike : (next.withStore b).Alike host'' s (s.store.backup.readHost host) := by
      refine ⟨⟨c', _, _, d, hlayers'', hlayers.readHost, ?_⟩, ?_, ?_⟩
      · rw [hbackup] at hsame'
        exact hsame'.symm.trans (s.store.backup.same_readBack hsame.symm)
      · exact hsigner.trans h.lasts.signer.symm
      · exact Except.ok.inj (hsubnet.symm.trans h.lasts.subnet)
    unfold Server.restoreFromBackup
    rw [hrestore]
    exact halike.run hping

/-- A server with a file in synchronous mode, and one with a database in asynchronous
mode, that have taken a negative zero. -/
theorem survives_restart_in_fresh_directory :
    let host := Host.ofDisk (Disk.withDirectory ["data"])
    let r : Request := ⟨"POST", "/update/gauge/load/-0", [], []⟩
    let withFile : Config.Server :=
      { Config.Server.default with filePath := some "metrics.json", storeInterval := 0 }
    let withDatabase : Config.Server :=
      { Config.Server.default with databaseName := some "sqlite:metrics.db" }
    (∃ s host', build withFile host = (.ok s, host') ∧
      (s.answer host' r).2.1.Survives withFile (s.answer host' r).2.2) ∧
    ∃ s host', build withDatabase host = (.ok s, host') ∧
      (s.answer host' r).2.1.Survives withDatabase (s.answer host' r).2.2 := by
  intro host r withFile withDatabase
  constructor
  · have hbuild : build withFile host = (.ok (fresh withFile (.file ⟨"metrics.json"⟩) none), host) :=
      rfl
    have hblank : Store.IsBlank host (.file ⟨"metrics.json"⟩) := ⟨by decide, by decide⟩
    exact ⟨_, _, hbuild, survives_restart (.answered r (.blank hbuild trivial hblank))⟩
  · let d : Database := ⟨0, some ⟨.usual, ["data", "metrics.db"]⟩⟩
    let opened : Host := { host with disk := (Database.connect host.disk "sqlite:metrics.db").2 }
    have hconnect : (Database.connect host.disk "sqlite:metrics.db").1 = .ok d := by
      decide +kernel
    have hbuild : build withDatabase host = (.ok (fresh withDatabase (.database d) none), opened) := by
      unfold build backupOf
      simp only [withDatabase, hconnect]
      rfl
    have hown : DatabaseName.isOwnMemory "sqlite:metrics.db" = false := by
      unfold DatabaseName.isOwnMemory
      decide +kernel
    have hblank : Store.IsBlank opened (.database d) := by
      refine ⟨?_, ?_⟩ <;> decide +kernel
    exact ⟨_, _, hbuild, survives_restart (.answered r (.blank hbuild ⟨rfl, hown⟩ hblank))⟩

end

end Server

end MetricRelay
