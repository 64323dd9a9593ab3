import MetricRelay.Proofs.Schedule
import MetricRelay.Proofs.Store.Keeping

/-!
# Backups from time to time

In asynchronous mode the backup is made once in every period, until the task that makes
it is stopped.  Meanwhile the memory goes on, and any of the backups may fail.  So the
backup lags behind: it has what the memory had when a backup last succeeded.

Main definitions:

- `Backed.Attempt`: a backup that was tried.
- `Backed.Tended`: a store on a clock, with the task that backs it up.
- `Backed.Tended.Reached`: such a store after any calls, turns of the task and moments.
- `Backed.Lags`: when backups were tried, and what the backup has.

Main results:

- `Backed.Tended.turn_works`: what is tried is what the task of a store does.
- `Backed.Tends.turn`: a turn of the task keeps what is known of the store.
- `Backed.Tended.Reached.lags`: the backups of any run.
-/

namespace MetricRelay.Backed

/-! ## Attempts -/

/-- A backup that was tried: when, what came of it, and what the memory had. -/
structure Attempt where
  moment : Nat
  result : Outcome Unit
  memory : Snapshot

/-- The last of some attempts that succeeded. -/
def lastTaken (attempts : List Attempt) : Option Attempt :=
  (attempts.filter (·.result.isOk)).getLast?

section

variable {attempts : List Attempt} {a : Attempt}

/-- An attempt that succeeds is the last one taken. -/
theorem lastTaken_append_of_ok (h : a.result = .ok ()) : lastTaken (attempts ++ [a]) = some a := by
  simp [lastTaken, h, Except.isOk, Except.toBool]

/-- An attempt that fails leaves the last one taken. -/
theorem lastTaken_append_of_error {e : Failure} (h : a.result = .error e) :
    lastTaken (attempts ++ [a]) = lastTaken attempts := by
  simp [lastTaken, h, Except.isOk, Except.toBool]

end

/-- What a backup has after some attempts, if it had something before them. -/
def kept (backup : Store) (before : Outcome Snapshot) (attempts : List Attempt) :
    Outcome Snapshot :=
  match lastTaken attempts with
  | none => before
  | some a => .ok (backup.gives a.memory)

/-! ## Runs -/

/-- A store on a clock, with the task that backs it up: whether the task has had its turn
at this moment, and all backups that were tried. -/
structure Tended where
  store : Backed
  host : Host
  cycle : Cycle
  now : Nat
  seen : Bool
  attempts : List Attempt

namespace Tended

/-- A store whose task begins at some moment. -/
def starting (store : Backed) (host : Host) (period : Nat) (positive : 0 < period) : Tended :=
  ⟨store, host, backups period positive, 0, false, []⟩

/-- The task, with a fate of the backup's part in it and a list of what was tried. -/
def attempt (now : Nat) (fate : Fate) (s : (Backed × Host) × List Attempt) :
    Nat × ((Backed × Host) × List Attempt) :=
  let tried := s.1.1.under s.1.2 fate createBackup
  (0, (tried.2, s.2 ++ [⟨now, tried.1, s.1.1.memory.snapshot s.1.2.heap⟩]))

/-- The task has its turn.  It is to stop from some moment on. -/
def turn (cancelled : Nat) (fate : Fate) (t : Tended) : Tended :=
  let (cycle, (store, host), attempts) := t.cycle.run (attempt t.now fate)
    (decide (cancelled ≤ t.now)) t.now ((t.store, t.host), t.attempts)
  { t with cycle := cycle, store := store, host := host, seen := true, attempts := attempts }

/-- The list apart, a turn in which the backup works is one of the task of a store. -/
theorem turn_works (cancelled : Nat) (t : Tended) :
    t.cycle.run refresh (decide (cancelled ≤ t.now)) t.now (t.store, t.host) =
      ((t.turn cancelled .works).cycle, (t.turn cancelled .works).store,
        (t.turn cancelled .works).host) :=
  Cycle.run_map (attempt t.now .works) refresh Prod.fst (fun _ => rfl) _ t.now t.cycle
    ((t.store, t.host), t.attempts)

/-- After a call of the store, or a change of its host. -/
def after (t : Tended) (called : Backed × Host) : Tended :=
  { t with store := called.1, host := called.2 }

/-- At the next moment. -/
def later (t : Tended) : Tended := { t with now := t.now + 1, seen := false }

/-- How many moments there were at which the task has had its turn. -/
def turns (t : Tended) : Nat := if t.seen then t.now + 1 else t.now

/-- The last moment at which the task has had its turn. -/
def through (t : Tended) : Nat := if t.seen then t.now else t.now - 1

/-- A store after any calls, with any cells of clients, at any moments, whatever the fate
of each backup.  No moment passes without a turn of the task, before or after the calls
of that moment.  Others may do to the disk what does not touch the backup. -/
inductive Reached (cancelled : Nat) (start : Tended) : Tended → Prop
  | start : Reached cancelled start start
  | alloc {t : Tended} (m : Metric) (before : Reached cancelled start t) :
      Reached cancelled start (t.after (t.store, (t.host.alloc m).2))
  | add {t : Tended} {hs : List Handle} (before : Reached cancelled start t)
      (valid : ∀ x ∈ hs, x.index < t.host.heap.size) :
      Reached cancelled start (t.after (t.store.add t.host hs).2)
  | restore {t : Tended} (content : Snapshot) (before : Reached cancelled start t) :
      Reached cancelled start (t.after (t.store.restore t.host content).2)
  | outside {t : Tended} (disk : Disk) (before : Reached cancelled start t)
      (unchanged : t.store.backup.Unchanged t.host { t.host with disk := disk }) :
      Reached cancelled start (t.after (t.store, { t.host with disk := disk }))
  | turn {t : Tended} (fate : Fate) (before : Reached cancelled start t) :
      Reached cancelled start (t.turn cancelled fate)
  | later {t : Tended} (before : Reached cancelled start t) (seen : t.seen = true) :
      Reached cancelled start t.later

end Tended

/-! ## What a backup has -/

section

variable {b : Backed} {host : Host}

/-- What an attempt leaves in the backup. -/
theorem Keeps.snapshot_under (h : b.Keeps host) (fate : Fate) (before : Outcome Snapshot)
    (attempts : List Attempt) (moment : Nat)
    (hcontent : (b.backup.snapshot host).1 = kept b.backup before attempts) :
    ((b.under host fate Backed.createBackup).2.1.backup.snapshot
        (b.under host fate Backed.createBackup).2.2).1 =
      kept b.backup before (attempts ++
        [⟨moment, (b.under host fate Backed.createBackup).1, b.memory.snapshot host.heap⟩]) := by
  unfold kept
  cases hresult : (b.under host fate Backed.createBackup).1 with
  | error e =>
    rw [lastTaken_append_of_error rfl,
      (leftAlone_createBackup fate hresult).leavesBackup.snapshot_eq]
    exact hcontent
  | ok u =>
    rw [lastTaken_append_of_ok rfl]
    cases fate with
    | works => exact h.snapshot_createBackup hresult
    | fails begun => cases hresult

/-- An attempt keeps the mode, and how the backup gives back what it takes. -/
theorem under_createBackup (b : Backed) (host : Host) (fate : Fate) :
    (b.under host fate createBackup).2.1.mode = b.mode ∧
      (b.under host fate createBackup).2.1.backup.gives = b.backup.gives := by
  cases fate with
  | works => exact ⟨rfl, b.backup.gives_restore host _⟩
  | fails begun => exact ⟨rfl, rfl⟩

end

/-- What is known of a store at any point of a run: its task is in time, and the backup
has what it was given last. -/
structure Tends (cancelled period : Nat) (backup : Store) (before : Outcome Snapshot)
    (t : Tended) : Prop where
  keeps : t.store.Keeps t.host
  mode : t.store.mode = .asynchronous
  gives : t.store.backup.gives = backup.gives
  timely : t.cycle.Timely period period cancelled t.turns (t.attempts.map (·.moment))
  content : (t.store.backup.snapshot t.host).1 = kept backup before t.attempts

section

variable {cancelled period : Nat} {backup : Store} {before : Outcome Snapshot} {t : Tended}

/-- At its start the task has taken nothing, and the backup is as it was. -/
theorem tends_starting {b : Backed} {host : Host} (hkeeps : b.Keeps host)
    (hmode : b.mode = .asynchronous) (positive : 0 < period) :
    Tends cancelled period b.backup (b.backup.snapshot host).1
      (.starting b host period positive) :=
  ⟨hkeeps, hmode, rfl, Cycle.timely_starting positive .makeUp, rfl⟩

/-- Calls that leave the backup alone do not matter to it. -/
theorem Tends.after (h : Tends cancelled period backup before t) {called : Backed × Host}
    (hkeeps : called.1.Keeps called.2) (hleaves : t.store.LeavesBackup t.host called) :
    Tends cancelled period backup before (t.after called) := by
  refine ⟨hkeeps, hleaves.mode.trans h.mode, ?_, h.timely, hleaves.snapshot_eq.trans h.content⟩
  rw [← h.gives, ← hleaves.store]
  rfl

/-- A turn of the task makes a backup, or does nothing. -/
theorem Tends.turn (h : Tends cancelled period backup before t) (fate : Fate) :
    Tends cancelled period backup before (t.turn cancelled fate) := by
  rcases t with ⟨store, host, cycle, now, seen, attempts⟩
  unfold Tended.turn
  simp only
  cases seen with
  | true =>
    have htimely : cycle.Timely period period cancelled (now + 1) (attempts.map (·.moment)) :=
      h.timely
    rw [htimely.run_again]
    exact h
  | false =>
    have htimely : cycle.Timely period period cancelled now (attempts.map (·.moment)) := h.timely
    have hinstant : (Tended.attempt now fate ((store, host), attempts)).1 = 0 := rfl
    rcases htimely.run_cases hinstant with ⟨cycle', htimely', hrun⟩ | ⟨cycle', htimely', hrun⟩
    · rw [hrun]
      rcases under_createBackup store host fate with ⟨hmode, hgives⟩
      refine ⟨h.keeps.under_createBackup fate, hmode.trans h.mode, hgives.trans h.gives, ?_, ?_⟩
      · rw [Tended.attempt, List.map_append]
        exact htimely'
      · have hcontent := h.keeps.snapshot_under fate before attempts now
        unfold kept at hcontent
        rw [h.gives] at hcontent
        exact hcontent h.content
    · rw [hrun]
      exact ⟨h.keeps, h.mode, h.gives, htimely', h.content⟩

/-- Whatever happens, the task is in time and the backup has what it was given last. -/
theorem Tended.Reached.tends {start : Tended} (h : Reached cancelled start t)
    (hstart : Tends cancelled period backup before start) :
    Tends cancelled period backup before t := by
  induction h with
  | start => exact hstart
  | alloc m _ ih =>
    exact ih.after (ih.keeps.congr fun x n hget => Heap.get?_alloc hget m)
      (ih.keeps.alloc_leavesBackup m)
  | add _ valid ih => exact ih.after (ih.keeps.add valid) (ih.keeps.add_leavesBackup ih.mode valid)
  | restore content _ ih =>
    exact ih.after (ih.keeps.restore content) (ih.keeps.restore_leavesBackup ih.mode content)
  | outside disk _ unchanged ih =>
    exact ih.after (ih.keeps.congr fun _ _ hget => hget) ⟨rfl, rfl, unchanged⟩
  | turn fate _ ih => exact ih.turn fate
  | @later t _ seen ih =>
    have hturns : t.turns = t.later.turns := if_pos seen
    exact ⟨ih.keeps, ih.mode, ih.gives, hturns ▸ ih.timely, ih.content⟩

/-! ## The run of a task -/

/-- Backups are tried at every multiple of the period until the task is stopped, whatever
becomes of them, and at no other moment.  One that fails leaves the store as it was.  The
backup has what the memory had at the last attempt that succeeded, or at first if there
was none.  The task whose attempts these are is that of the store: a turn in which the
backup's part works is one of its own. -/
structure Lags (cancelled period : Nat) (backup : Store) (before : Outcome Snapshot)
    (t : Tended) : Prop where
  moments : t.attempts.map (·.moment) =
    (List.range (min t.through cancelled / period)).map fun k => (k + 1) * period
  harmless : ∀ fate e, (t.store.under t.host fate createBackup).1 = .error e →
    t.store.LeftAlone t.host (t.store.under t.host fate createBackup).2
  content : (t.store.backup.snapshot t.host).1 = kept backup before t.attempts
  task : t.cycle.run refresh (decide (cancelled ≤ t.now)) t.now (t.store, t.host) =
    ((t.turn cancelled .works).cycle, (t.turn cancelled .works).store,
      (t.turn cancelled .works).host)

/-- The attempts up to some moment. -/
theorem Tends.moments_eq (h : Tends cancelled period backup before t)
    (hcancelled : ¬ period ∣ cancelled) :
    t.attempts.map (·.moment) =
      (List.range (min t.through cancelled / period)).map fun k => (k + 1) * period := by
  have hthrough : t.through = t.turns - 1 := by
    unfold Tended.through Tended.turns
    split <;> rfl
  rw [h.timely.done, Cycle.ticksBefore_min hcancelled, ← hthrough, Cycle.moments]
  refine List.map_congr_left fun k _ => ?_
  rw [Nat.add_mul, Nat.one_mul, Nat.add_comm]

/-- The backups of any run of the task, of any store in asynchronous mode. -/
theorem Tended.Reached.lags {b : Backed} {host : Host} (hkeeps : b.Keeps host)
    (hmode : b.mode = .asynchronous) (positive : 0 < period) (hcancelled : ¬ period ∣ cancelled)
    (h : Reached cancelled (.starting b host period positive) t) :
    Lags cancelled period b.backup (b.backup.snapshot host).1 t := by
  have htends := h.tends (tends_starting hkeeps hmode positive)
  exact ⟨htends.moments_eq hcancelled, fun fate e => leftAlone_createBackup fate,
    htends.content, t.turn_works cancelled⟩

/-- A total that is counted up before each attempt and after the last one, of two of which
the first fails. -/
theorem Tended.lags_after_failing_attempt :
    let host := ((Host.ofDisk (Disk.withDirectory ["data"])).alloc ⟨"polls", .total (.clamp 5)⟩).2
    let start := Tended.starting (.«over» (.memory .empty) .asynchronous) host 2 (by decide)
    let counted (t : Tended) := t.after (t.store.add t.host [⟨0⟩]).2
    let failed := ((counted (start.turn 5 .works)).later.turn 5 .works).later.turn 5 (.fails none)
    let worked := ((counted failed).later.turn 5 .works).later.turn 5 .works
    let stopped := (counted worked).later.turn 5 .works
    Lags 5 2 (.memory .empty) (.ok .empty) stopped ∧
      stopped.attempts.map (·.result) = [.error Store.onFire, .ok ()] ∧
      (stopped.store.memory.snapshot stopped.host.heap).triples = [("counter", "polls", "15")] ∧
      (stopped.store.backup.snapshot stopped.host).1.map Snapshot.triples =
        .ok [("counter", "polls", "10")] := by
  intro host start counted failed worked stopped
  have hmemory (heap : Heap) : ∃ c : Content, Memory.Holds heap .empty c ∧ c.Sound :=
    ⟨[], Memory.holds_empty heap, Content.sound_nil⟩
  have hkeeps : start.store.Keeps start.host :=
    .backed ⟨hmemory _, hmemory _, fun x hx => absurd hx List.not_mem_nil⟩
  have hcounted {t : Tended} (h : Reached 5 start t) (hvalid : 0 < t.host.heap.size) :
      Reached 5 start (counted t) := .add h fun x hx => by
    rw [List.mem_singleton.1 hx]
    exact hvalid
  have hfailed : Reached 5 start failed :=
    .turn _ (.later (.turn _ (.later (hcounted (.turn _ .start) (by decide +kernel)) rfl)) rfl)
  have hworked : Reached 5 start worked :=
    .turn _ (.later (.turn _ (.later (hcounted hfailed (by decide +kernel)) rfl)) rfl)
  have hstopped : Reached 5 start stopped :=
    .turn _ (.later (hcounted hworked (by decide +kernel)) rfl)
  refine ⟨hstopped.lags hkeeps rfl (by decide) (by decide), ?_⟩
  exact ⟨by decide +kernel, by decide +kernel, by decide +kernel⟩

/-- What the backup has need not be just what the memory had, also where all backups
succeed: one that is disabled keeps nothing, and a database does not tell the two zeros
apart. -/
theorem Tended.not_kept_exactly :
    let start (backup : Store) (m : Metric) : Tended :=
      let host := ((Host.ofDisk (Disk.withDirectory ["data"]).addTable.2).alloc m).2
      .starting (.«over» backup .asynchronous) host 2 (by decide)
    let Misses (start : Tended) : Prop := ∃ t a, Reached 3 start t ∧
      lastTaken t.attempts = some a ∧ (t.store.backup.snapshot t.host).1 ≠ .ok a.memory
    Misses (start .disabled ⟨"polls", .total (.clamp 5)⟩) ∧
      Misses (start (.database ⟨0, none⟩) ⟨"load", .reading (.zero true)⟩) := by
  intro start Misses
  let run (start : Tended) : Tended :=
    (((start.after (start.store.add start.host [⟨0⟩]).2).turn 3 .works).later.turn 3
      .works).later.turn 3 .works
  have hmisses {start : Tended} {had has : List (String × String × String)}
      (hvalid : 0 < start.host.heap.size)
      (hhad : (lastTaken (run start).attempts).map (·.memory.triples) = some had)
      (hhas : ((run start).store.backup.snapshot (run start).host).1.map Snapshot.triples = .ok has)
      (hne : has ≠ had) : Misses start := by
    rcases Option.map_eq_some_iff.1 hhad with ⟨a, ha, rfl⟩
    refine ⟨run start, a, .turn _ (.later (.turn _ (.later (.turn _ (.add .start ?_)) rfl)) rfl),
      ha, fun hsame => hne ?_⟩
    · intro x hx
      rw [List.mem_singleton.1 hx]
      exact hvalid
    · rw [hsame] at hhas
      cases hhas
      rfl
  constructor
  · let ended := run (start .disabled ⟨"polls", .total (.clamp 5)⟩)
    have hhad : (lastTaken ended.attempts).map (·.memory.triples) =
        some [("counter", "polls", "5")] := by decide +kernel
    have hhas : (ended.store.backup.snapshot ended.host).1.map Snapshot.triples = .ok [] := by
      decide +kernel
    exact hmisses (by decide) hhad hhas (by decide)
  · let ended := run (start (.database ⟨0, none⟩) ⟨"load", .reading (.zero true)⟩)
    have hhad : (lastTaken ended.attempts).map (·.memory.triples) =
        some [("gauge", "load", "-0")] := by decide +kernel
    have hhas : (ended.store.backup.snapshot ended.host).1.map Snapshot.triples =
        .ok [("gauge", "load", "0")] := by decide +kernel
    exact hmisses (by decide) hhad hhas (by decide)

end

end MetricRelay.Backed
