import MetricRelay.Console
import MetricRelay.Proofs.Config.Agent
import MetricRelay.Proofs.Http.Startup

/-!
# What accepted configurations are good for

The values of a configuration are checked when it is read, and used later: the address
to listen on and the subnet are read once more, and a period drives a ticker, which does
not go on without one.  Once a configuration is accepted, none of this fails.

Main definitions:

- `Config.Server.IsAccepted`: what the checks of a server demand.
- `BackupTask.Goes`: how backups are made while a server serves.
- `Config.Server.IsUsable` and `Config.Agent.IsUsable`: nothing that a program does with
  its configuration fails.

Main results:

- `Config.Server.check_eq_ok_iff`: the checks of a server as a whole.
- `Program.goes_of_serve`: every server that serves makes its backups as its mode says.
- `Program.usable_of_parse`: whatever text states a configuration.
-/

namespace MetricRelay

/-! ## Checks of a server -/

namespace Config

/-- A result that is not looked at has to be there. -/
theorem discard_eq_ok_iff {α : Type} {result : Outcome α} :
    discard result = .ok () ↔ ∃ a, result = .ok a := by
  cases result with
  | error e => simp [discard, Functor.mapConst, Except.map]
  | ok a => simp [discard, Functor.mapConst, Except.map]

namespace Server

/-- The values that a configuration may have. -/
structure IsAccepted (c : Config.Server) : Prop where
  version : c.version = 1
  listen : (Endpoint.parse? c.listen).isSome = true
  subnet : ∀ block, c.trustedSubnet = some block → ∃ subnet, Subnet.parse block = .ok subnet
  storeInterval : c.storeInterval ≤ 86400
  databaseName : isBlank c.databaseName = false
  filePath : isBlank c.filePath = false

/-- The checks as a whole. -/
theorem check_eq_ok_iff {c : Config.Server} : c.check = .ok () ↔ c.IsAccepted := by
  unfold check
  cases hblock : c.trustedSubnet with
  | none =>
    simp only [bind_eq_ok_iff, checkVersion_eq_ok_iff, require_eq_ok_iff, decide_eq_true_eq,
      Bool.not_eq_true']
    constructor
    · rintro ⟨hversion, hlisten, hinterval, hdatabase, hfile⟩
      refine ⟨hversion, hlisten, fun block h => ?_, hinterval, hdatabase, hfile⟩
      cases hblock.symm.trans h
    · intro h
      exact ⟨h.version, h.listen, h.storeInterval, h.databaseName, h.filePath⟩
  | some block =>
    simp only [bind_eq_ok_iff, checkVersion_eq_ok_iff, require_eq_ok_iff, discard_eq_ok_iff,
      decide_eq_true_eq, Bool.not_eq_true']
    constructor
    · rintro ⟨hversion, hlisten, hsubnet, hinterval, hdatabase, hfile⟩
      refine ⟨hversion, hlisten, fun block' h => ?_, hinterval, hdatabase, hfile⟩
      cases hblock.symm.trans h
      exact hsubnet
    · intro h
      exact ⟨h.version, h.listen, h.subnet block hblock, h.storeInterval, h.databaseName,
        h.filePath⟩

end Server

end Config

/-! ## Backups while a server serves -/

/-- Backups are made in asynchronous mode and in no other: one in every so many seconds, and
at least a second apart. -/
def BackupTask.Goes (mode : SyncMode) (seconds : Nat) : BackupTask → Prop
  | .unwanted => mode = .synchronous
  | .waiting cycle =>
    mode = .asynchronous ∧ cycle.ticker.period = seconds * 1000 ∧ 1000 ≤ cycle.ticker.period
  | .brokenDown => False

namespace Server

/-- A server whose mode is that of its configuration has a period for its ticker. -/
theorem goes_backupTask {s : Server}
    (hmode : s.store.mode = .ofInterval s.config.storeInterval) :
    s.backupTask.Goes s.store.mode s.config.storeInterval := by
  unfold backupTask
  by_cases hzero : s.config.storeInterval = 0
  · have hsync : s.store.mode = .synchronous := by
      rw [hmode, SyncMode.ofInterval, if_pos hzero]
    rw [hsync]
    rfl
  · have hasync : s.store.mode = .asynchronous := by
      rw [hmode, SyncMode.ofInterval, if_neg hzero]
    have hsecond : 1000 ≤ s.config.storeInterval * 1000 :=
      Nat.le_mul_of_pos_left 1000 (Nat.pos_of_ne_zero hzero)
    have hperiod : 0 < s.config.storeInterval * 1000 := Nat.lt_of_lt_of_le (by decide) hsecond
    rw [hasync]
    simp only [hperiod, dite_true]
    exact ⟨rfl, rfl, hsecond⟩

/-- A server starts in the mode of its configuration. -/
theorem mode_of_start {config : Config.Server} {s : Server} {log : List LogLine}
    {host host' : Host} (h : start config host = (.ok s, log, host')) :
    s.store.mode = .ofInterval s.config.storeInterval := by
  rcases start_eq_ok h with ⟨built, opened, hbuild, -, hload⟩
  rcases build_eq_ok hbuild with ⟨backup, subnet, -, -, -, rfl⟩
  rcases (fresh config backup subnet).exists_load_eq opened with ⟨b, hs, -, hmode⟩
  rw [hload] at hs
  cases hs
  exact hmode

end Server

/-! ## Configurations that are read -/

namespace Config

/-- A server listens where its configuration says, and serves over any backup, of which it
takes care as its mode says. -/
structure Server.IsUsable (c : Config.Server) : Prop where
  listens : ∃ e, Program.listenOn c = .ok e
  serves : ∀ backup, ∃ s, MetricRelay.Server.withBackup c backup = .ok s ∧ s.config = c ∧
    s.store.backup = backup ∧ s.store.mode = .ofInterval c.storeInterval ∧
    s.backupTask.Goes s.store.mode c.storeInterval

/-- An agent can push its metrics, and its tasks have periods. -/
structure Agent.IsUsable (c : Config.Agent) : Prop where
  pushes : ∃ p, c.pusher = .ok p ∧ p.batchSize = c.batchSize ∧ 1 ≤ p.batchSize ∧
    p.batchSize ≤ 10000
  pollInterval : 0 < c.pollInterval
  reportInterval : 0 < c.reportInterval
  pushTimeout : 0 < c.pushTimeout

/-- What is demanded of the configuration of a server is enough for one to be built and to
listen. -/
theorem Server.IsAccepted.usable {c : Config.Server} (h : c.IsAccepted) : c.IsUsable := by
  constructor
  · rcases Option.isSome_iff_exists.1 h.listen with ⟨e, he⟩
    exact ⟨e, by rw [Program.listenOn, he]⟩
  · intro backup
    have hsubnet : ∃ subnet, MetricRelay.Server.subnetOf c = .ok subnet := by
      unfold MetricRelay.Server.subnetOf
      cases hblock : c.trustedSubnet with
      | none => exact ⟨none, rfl⟩
      | some block =>
        rcases h.subnet block hblock with ⟨subnet, hparse⟩
        exact ⟨some subnet, by simp only [hparse]; rfl⟩
    rcases hsubnet with ⟨subnet, hsubnet⟩
    refine ⟨.fresh c backup subnet, ?_, rfl, rfl, rfl, MetricRelay.Server.goes_backupTask rfl⟩
    rw [MetricRelay.Server.withBackup_eq, hsubnet]
    rfl

/-- What is demanded of that of an agent is enough for it to run and to push. -/
theorem Agent.IsAccepted.usable {c : Config.Agent} (h : c.IsAccepted) : c.IsUsable := by
  rcases h.exists_pusher with ⟨address, hpusher⟩
  exact ⟨⟨_, hpusher, rfl, h.batchSize.1, h.batchSize.2⟩, h.pollInterval.1, h.reportInterval.1,
    Nat.lt_of_lt_of_le (by decide) h.pushTimeout.1⟩

end Config

namespace Program

theorem eq_ok_of_toOption {ε α : Type} {result : Except ε α} {a : α}
    (h : result.toOption = some a) : result = .ok a := by
  cases result with
  | error e => cases h
  | ok b =>
    cases h
    rfl

/-- What is served is a server that was started, with the task for its backups. -/
theorem exists_start_of_serve {path : Option String} {host : Host} {serving : Serving}
    (h : serve path host = .ok serving) :
    ∃ config, Server.start config host = (.ok serving.server, serving.log, serving.host) ∧
      serving.backups = serving.server.backupTask := by
  unfold serve at h
  split at h
  · cases h
  · rename_i config endpoint _
    rcases hstart : Server.start config host with ⟨result, log, host'⟩
    rw [hstart] at h
    cases result with
    | error e => cases h
    | ok s =>
      simp only at h
      cases hlisten : endpoint.listen with
      | error e =>
        rw [hlisten] at h
        cases h
      | ok u =>
        rw [hlisten] at h
        cases h
        exact ⟨config, hstart, rfl⟩

/-- Every server that serves makes its backups as its mode says. -/
theorem goes_of_serve {path : Option String} {host : Host} {serving : Serving}
    (h : serve path host = .ok serving) :
    serving.backups.Goes serving.server.store.mode serving.server.config.storeInterval := by
  rcases exists_start_of_serve h with ⟨config, hstart, hbackups⟩
  rw [hbackups]
  exact Server.goes_backupTask (Server.mode_of_start hstart)

/-- Whatever text states a configuration, nothing fails later that depends on it alone:
a server listens somewhere, serves over any backup, and keeps it fresh as its mode says;
an agent pushes its metrics, and its tasks have periods. -/
theorem usable_of_parse :
    (∀ text c, Config.Server.parse text = .ok c → c.IsUsable) ∧
      (∀ path host serving, serve path host = .ok serving →
        serving.backups.Goes serving.server.store.mode serving.server.config.storeInterval) ∧
      ∀ text c, Config.Agent.parse text = .ok c → c.IsUsable := by
  refine ⟨fun text c h => ?_, fun path host serving => goes_of_serve, fun text c h => ?_⟩
  · exact (Config.Server.check_eq_ok_iff.1 (Config.check_of_read h)).usable
  · exact (Config.Agent.check_eq_ok_iff.1 (Config.check_of_read h)).usable

/-- A server with blanks around its subnet and a backup in every second, and an agent with
blanks around its address and the largest chunks. -/
theorem usable_of_parse_with_blanks :
    let serverText := "version: 1\nserver:\n  trusted_subnet: ' 10.0.0.7/8 '\n" ++
      "storage:\n  store_interval_secs: 1\n"
    let agentText := "version: 1\nagent:\n  server_url: ' localhost '\n  batch_size: 10000\n"
    (∃ c, Config.Server.parse serverText = .ok c ∧ c.trustedSubnet = some " 10.0.0.7/8 " ∧
      c.storeInterval = 1 ∧ c.IsUsable) ∧
    (∃ serving, serve none (Console.host serverConfig serverText) = .ok serving ∧
      serving.backups.Goes .asynchronous 1) ∧
    ∃ c, Config.Agent.parse agentText = .ok c ∧ c.batchSize = 10000 ∧ c.IsUsable := by
  intro serverText agentText
  have hserver : (Config.Server.parse serverText).toOption =
      some { Config.Server.default with
        trustedSubnet := some " 10.0.0.7/8 ", storeInterval := 1 } := by
    decide +kernel
  have hserves : ((serve none (Console.host serverConfig serverText)).toOption.map fun serving =>
      (serving.server.store.mode, serving.server.config.storeInterval)) =
      some (.asynchronous, 1) := by
    decide +kernel
  have hagent : (Config.Agent.parse agentText).toOption =
      some { Config.Agent.default with serverAddress := " localhost ", batchSize := 10000 } := by
    decide +kernel
  rcases usable_of_parse with ⟨hservers, hgoes, hagents⟩
  refine ⟨?_, ?_, ?_⟩
  · have hparse := eq_ok_of_toOption hserver
    exact ⟨_, hparse, rfl, rfl, hservers _ _ hparse⟩
  · rcases Option.map_eq_some_iff.1 hserves with ⟨serving, hserving, hseconds⟩
    have hserve := eq_ok_of_toOption hserving
    have hgoes := hgoes none _ serving hserve
    rw [Prod.mk.injEq] at hseconds
    rw [hseconds.1, hseconds.2] at hgoes
    exact ⟨serving, hserve, hgoes⟩
  · have hparse := eq_ok_of_toOption hagent
    exact ⟨_, hparse, rfl, hagents _ _ hparse⟩

end Program

end MetricRelay
