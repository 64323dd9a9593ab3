import MetricRelay.Proofs.Http.Restart
import MetricRelay.Proofs.Service.Updates

/-!
# The server from its start on

In synchronous mode a server writes every update to its backup, but only the update:
each layer adds it to what it has itself.  So the layers agree for as long as the
server runs if they did when it started.  They do if the server loads its backup
first, whatever earlier runs have left in it, and also if there was nothing to load.
A server that does not load what it finds serves from an empty memory over a backup
that goes on from the old totals.

Main definitions:

- `Server.Finds`: what a server finds when it starts, after any earlier runs.
- `Server.Runs`: both layers of a server hold contents, and agree where they did at
  its start.
- `Server.Agrees`: the values that are served are those in the backup.

Main results:

- `Server.Runs.load` and `Server.Runs.answer`: what one step keeps.
- `Server.Finds.runs`: what a server is built over.
- `Server.agrees_from_start`: the layers agree after any requests.
-/

namespace MetricRelay

open Http (Request Response Target)

namespace Server

/-- The backup of a configuration works and holds nothing. -/
def FindsNothing (config : Config.Server) (host : Host) : Prop :=
  ∀ s host', build config host = (.ok s, host') → s.store.backup.IsBlank host'

/-- What a server of a configuration finds when it starts: nothing, or what an earlier
run of the same server has left, with whatever request that run ended. -/
inductive Finds (config : Config.Server) : Host → Prop
  | nothing {host : Host} (blank : FindsNothing config host) : Finds config host
  | left {s : Server} {log : List LogLine} {host host' : Host} (before : Finds config host)
      (started : start config host = (.ok s, log, host'))
      (outlives : Outlives config s.store.backup) (rs : List Request) :
      Finds config (s.run host' rs).2.2.restarted

/-- Both layers of a server hold contents, in synchronous mode the same ones if they
agreed at first.  A backup that lasts is found again. -/
structure Runs (config : Config.Server) (agreed lasting : Prop) (s : Server) (host : Host) :
    Prop where
  mode : s.store.mode = .ofInterval config.storeInterval
  contents : ∃ c d, s.store.Layers host c d ∧
    (agreed → s.store.mode = .synchronous → c.Same d)
  backs : lasting → Backs config host.disk s.store.backup

/-- The values that a server serves are those in its backup, up to what the backup
does not tell apart. -/
structure Agrees (s : Server) (host : Host) : Prop where
  snapshots : (s.store.backup.snapshot host).1 =
    .ok (s.store.backup.reads (s.store.memory.snapshot host.heap))
  values : ∀ key, s.store.backup.board host key =
    (s.board host key).map s.store.backup.readValue

section

variable {config : Config.Server} {agreed lasting : Prop} {s : Server} {host host' : Host}

/-! ## Requests -/

/-- A request adds the same updates to both layers, or none. -/
theorem Runs.answer (h : Runs config agreed lasting s host) (r : Request) :
    Runs config agreed lasting (s.answer host r).2.1 (s.answer host r).2.2 := by
  refine answer_keeps h (fun messages => ?_) r
  rcases h.contents with ⟨c, d, hlayers, hsame⟩
  cases hmetrics : s.service.signer.fromMessages messages with
  | error e =>
    rw [Service.update_of_error hmetrics]
    exact h
  | ok metrics =>
    have hbacks (hlasting : lasting) := (h.backs hlasting).update messages
    rcases Service.update_of_layers hlayers hmetrics with ⟨b, host', hupdate, hlayers', hmode⟩
    rw [hupdate] at hbacks ⊢
    refine ⟨hmode.trans h.mode, ⟨_, _, hlayers', fun hagreed hsync => ?_⟩, hbacks⟩
    have hbefore : s.service.store.mode = .synchronous := hmode.symm.trans hsync
    rw [hbefore]
    exact ((hsame hagreed hbefore).add metrics).2

/-- What a request keeps of the layers is kept by a run of requests. -/
theorem Runs.run (h : Runs config agreed lasting s host) (rs : List Request) :
    Runs config agreed lasting (s.run host rs).2.1 (s.run host rs).2.2 := by
  induction rs generalizing s host with
  | nil => exact h
  | cons r rs ih =>
    rw [run_cons]
    exact ih (h.answer r)

/-! ## Starts -/

/-- Loading the backup makes the layers agree, and never fails. -/
theorem Runs.load (h : Runs config agreed lasting s host) (hconfig : s.config = config) :
    (s.load host).1 = [] ∧
      Runs config (agreed ∨ config.restore = true) lasting (s.load host).2.1 (s.load host).2.2 := by
  rcases h.contents with ⟨c, d, hlayers, hsame⟩
  unfold Server.load
  rw [hconfig]
  cases hrestore : config.restore with
  | false =>
    refine ⟨rfl, h.mode, ⟨c, d, hlayers, fun hagreed => ?_⟩, h.backs⟩
    rcases hagreed with hagreed | hloaded
    · exact hsame hagreed
    · cases hloaded
  | true =>
    have hbacks (hlasting : lasting) := (h.backs hlasting).restoreFromBackup
    rcases hlayers.restoreFromBackup with ⟨c', b, host', hload, hlayers', hsame', hmode⟩
    simp only [if_true, Server.restoreFromBackup]
    rw [hload] at hbacks ⊢
    exact ⟨rfl, hmode.trans h.mode, ⟨c', _, hlayers', fun _ _ => hsame'.symm⟩, hbacks⟩

/-- A start is a build, after which the backup is loaded. -/
theorem start_eq_ok {log : List LogLine} (h : start config host = (.ok s, log, host')) :
    ∃ built opened, build config host = (.ok built, opened) ∧ built.config = config ∧
      built.load opened = (log, s, host') := by
  unfold start at h
  rcases hbuild : build config host with ⟨result, opened⟩
  rw [hbuild] at h
  cases result with
  | error e => cases h
  | ok built =>
    rcases build_eq_ok hbuild with ⟨backup, subnet, -, -, -, rfl⟩
    rcases hload : (fresh config backup subnet).load opened with ⟨log', s', host''⟩
    simp only [hload] at h
    cases h
    exact ⟨_, opened, rfl, rfl, hload⟩

/-- Loading the backup only changes what is in memory. -/
theorem exists_load_eq (s : Server) (host : Host) :
    ∃ b, (s.load host).2.1 = s.withStore b ∧ b.backup = s.store.backup ∧
      b.mode = s.store.mode := by
  have hrestore : (s.store.restoreFromBackup host).2.1.backup = s.store.backup ∧
      (s.store.restoreFromBackup host).2.1.mode = s.store.mode := by
    unfold Backed.restoreFromBackup
    rcases s.store.backup.snapshot host with ⟨result, host'⟩
    cases result <;> exact ⟨rfl, rfl⟩
  unfold load
  split
  · refine ⟨_, ?_, hrestore⟩
    rcases hload : s.restoreFromBackup host with ⟨result, s', host'⟩
    have hs' : s' = s.withStore (s.store.restoreFromBackup host).2.1 :=
      (congrArg (fun x => x.2.1) hload).symm
    cases result with
    | ok u => exact hs'
    | error e => exact hs'
  · exact ⟨s.store, rfl, rfl, rfl⟩

/-- Loading leaves the backup the store it was. -/
theorem backup_load (s : Server) (host : Host) :
    (s.load host).2.1.store.backup = s.store.backup := by
  rcases s.exists_load_eq host with ⟨b, hload, hbackup, -⟩
  rw [hload]
  exact hbackup

/-- A server is built over what its backup holds.  As its memory is empty, the layers
only agree so far if that is nothing. -/
theorem runs_of_build (hbuild : build config host = (.ok s, host')) {d : Content}
    (hholds : Session.Holds ⟨s.store.backup, host'⟩ d) (hd : d.Sound) :
    Runs config (s.store.backup.IsBlank host') (Outlives config s.store.backup) s host' := by
  rcases build_eq_ok hbuild with ⟨backup, subnet, hbackup, -, -, rfl⟩
  have hbacks (hlasting : Outlives config backup) : Backs config host'.disk backup :=
    backs_of_backupOf hbackup hlasting
  by_cases hblank : backup.IsBlank host'
  · have hlayers := Backed.layers_over (Session.holds_of_isBlank hblank) Content.sound_nil
      (.ofInterval config.storeInterval)
    exact ⟨rfl, ⟨[], [], hlayers, fun _ _ => Content.Same.refl []⟩, hbacks⟩
  · have hlayers := Backed.layers_over hholds hd (.ofInterval config.storeInterval)
    exact ⟨rfl, ⟨[], d, hlayers, fun hagreed => absurd hagreed hblank⟩, hbacks⟩

/-- Whatever earlier runs have left, a server is built over a backup that holds some
content. -/
theorem Finds.runs (h : Finds config host) (hbuild : build config host = (.ok s, host')) :
    Runs config (s.store.backup.IsBlank host') (Outlives config s.store.backup) s host' := by
  induction h generalizing s host' with
  | nothing blank =>
    exact runs_of_build hbuild (Session.holds_of_isBlank (blank s host' hbuild)) Content.sound_nil
  | left before started outlives rs ih =>
    rcases start_eq_ok started with ⟨built, opened, hbuilt, hconfig, hload⟩
    have hbackup := built.backup_load opened
    have hstarted := ((ih hbuilt).load hconfig).2
    rw [hload] at hbackup hstarted
    rw [hbackup] at outlives
    have hran := hstarted.run rs
    rcases hran.contents with ⟨c, d, hlayers, -⟩
    have hfound : Found config _ _ d := ⟨hlayers.backup, hlayers.sound_backup, hran.backs outlives⟩
    rcases hfound.restarted.build hbuild with ⟨-, hlayers', -⟩
    exact runs_of_build hbuild hlayers'.backup hlayers'.sound_backup

/-! ## Agreement -/

/-- Layers that hold the same agree. -/
theorem agrees_of_layers {c d : Content} (h : s.store.Layers host c d) (hsame : c.Same d) :
    s.Agrees host := by
  constructor
  · rcases h.backup.snapshot h.sound_backup.finite with ⟨host', hsnapshot, -⟩
    have hshown := hsame.ofMetrics_eq h.sound.distinct h.sound_backup.distinct
    rw [hsnapshot, h.memory.snapshot_eq, hshown]
  · intro key
    have hserved : s.board host key = c.find? key := congrFun (board_of_holds h.memory) key
    rw [h.backup.board_eq h.sound_backup.finite, hserved, hsame key]
    exact Store.find?_readBack _ d key

/-- A server in synchronous mode that loads what it finds, or finds nothing, starts
without a complaint.  After any requests the values that it serves are those in its
backup. -/
theorem agrees_from_start (hsync : config.storeInterval = 0) {log : List LogLine}
    (hfinds : Finds config host) (hstart : start config host = (.ok s, log, host'))
    (hloads : config.restore = true ∨ FindsNothing config host) :
    log = [] ∧ ∀ rs, (s.run host' rs).2.1.Agrees (s.run host' rs).2.2 := by
  rcases start_eq_ok hstart with ⟨built, opened, hbuilt, hconfig, hload⟩
  have hagreed : built.store.backup.IsBlank opened ∨ config.restore = true :=
    hloads.symm.imp_left fun hblank => hblank built opened hbuilt
  rcases (hfinds.runs hbuilt).load hconfig with ⟨hlog, hruns⟩
  rw [hload] at hlog hruns
  refine ⟨hlog, fun rs => ?_⟩
  have hran := hruns.run rs
  rcases hran.contents with ⟨c, d, hlayers, hsame⟩
  have hmode : (s.run host' rs).2.1.store.mode = .synchronous := by
    rw [hran.mode, hsync]
    rfl
  exact agrees_of_layers hlayers (hsame hagreed hmode)

/-- A server with a file that loads what an earlier run has left, a negative zero and
a total. -/
theorem agrees_from_start_after_run :
    let config : Config.Server :=
      { Config.Server.default with filePath := some "metrics.json", storeInterval := 0 }
    let host := Host.ofDisk (Disk.withDirectory ["data"])
    let rs : List Request := [⟨"POST", "/update/gauge/load/-0", [], []⟩,
      ⟨"POST", "/update/counter/polls/5", [], []⟩]
    let s := fresh config (.file ⟨"metrics.json"⟩) none
    let loaded := s.load (s.run host rs).2.2.restarted
    loaded.1 = [] ∧
      ∀ rs, (loaded.2.1.run loaded.2.2 rs).2.1.Agrees (loaded.2.1.run loaded.2.2 rs).2.2 := by
  intro config host rs s loaded
  have hnothing : FindsNothing config host := by
    intro s' host' hbuild
    cases hbuild
    exact ⟨by decide, by decide⟩
  have hstart (host : Host) :
      start config host = (.ok (s.load host).2.1, (s.load host).1, (s.load host).2.2) := rfl
  have hstarted : start config host = (.ok s, [], host) := by
    rw [hstart]
    rfl
  have hfinds : Finds config (s.run host rs).2.2.restarted :=
    .left (.nothing hnothing) hstarted trivial rs
  exact agrees_from_start rfl hfinds (hstart _) (Or.inl rfl)

/-- A server that does not load the total that an earlier run has left serves another
one than its backup holds. -/
theorem not_agrees_without_loading :
    let config : Config.Server :=
      { Config.Server.default with
        filePath := some "metrics.json", storeInterval := 0, restore := false }
    let host := Host.ofDisk (Disk.withDirectory ["data"])
    let r : Request := ⟨"POST", "/update/counter/polls/5", [], []⟩
    let s := fresh config (.file ⟨"metrics.json"⟩) none
    let found := (s.run host [r]).2.2.restarted
    config.check = .ok () ∧ Finds config found ∧ start config found = (.ok s, [], found) ∧
      (s.run found [r]).1.map Response.status = [200] ∧
      ¬ (s.run found [r]).2.1.Agrees (s.run found [r]).2.2 := by
  intro config host r s found
  have hnothing : FindsNothing config host := by
    intro s' host' hbuild
    cases hbuild
    exact ⟨by decide, by decide⟩
  have hstart (host : Host) : start config host = (.ok s, [], host) := rfl
  have hfinds : Finds config found := .left (.nothing hnothing) (hstart host) trivial [r]
  refine ⟨by decide +kernel, hfinds, hstart found, by decide +kernel, fun h => ?_⟩
  -- Five is served, and ten is kept.
  have hdiffers : (s.run found [r]).2.1.store.backup.board (s.run found [r]).2.2
      ⟨.counter, "polls"⟩ ≠
        ((s.run found [r]).2.1.board (s.run found [r]).2.2 ⟨.counter, "polls"⟩).map
          (s.run found [r]).2.1.store.backup.readValue := by
    decide +kernel
  exact hdiffers (h.values ⟨.counter, "polls"⟩)

end

end Server

end MetricRelay
