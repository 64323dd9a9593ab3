import MetricRelay.Proofs.Store.Layers

/-!
# The backup mirrors the memory

In synchronous mode every write goes to both layers of a store, and each of them
adds updates to what it has itself.  They stay the same all the same: through
totals at the ends of their range, keys that come twice, snapshots that replace
everything in either direction, and snapshots that are refused.

Main definitions:

- `Backed.Written`: a store over a backup that nobody else touches.
- `Backed.Mirrored`: one in synchronous mode that starts blank or from its backup,
  and whose updates are taken.
- `Backed.Mirrors`: what its two layers have in common.

Main results:

- `Backed.Written.layers`: both layers hold contents, whatever calls are made.
- `Backed.Mirrored.mirrors`: the backup mirrors the memory after every call.
-/

namespace MetricRelay

namespace Backed

/-- A store over a backup that was blank at first, after any calls with any
results.  It may be replaced by a new one over the same backup, also in another
process unless the backup is in memory. -/
inductive Written : Backed → Host → Prop
  | blank {backup : Store} {host : Host} (mode : SyncMode) (blank : backup.IsBlank host) :
      Written (.«over» backup mode) host
  | renewed {b : Backed} {host : Host} (mode : SyncMode) (before : Written b host) :
      Written (.«over» b.backup mode) host
  | restarted {b : Backed} {host : Host} (mode : SyncMode) (before : Written b host)
      (durable : ∀ m, b.backup ≠ .memory m) : Written (.«over» b.backup mode) host.restarted
  | alloc {b : Backed} {host : Host} (m : Metric) (before : Written b host) :
      Written b (host.alloc m).2
  | add {b : Backed} {host : Host} {hs : List Handle} (before : Written b host)
      (valid : ∀ x ∈ hs, x.index < host.heap.size) :
      Written (b.add host hs).2.1 (b.add host hs).2.2
  | restore {b : Backed} {host : Host} (s : Snapshot) (before : Written b host) :
      Written (b.restore host s).2.1 (b.restore host s).2.2
  | createBackup {b : Backed} {host : Host} (before : Written b host) :
      Written (b.createBackup host).2.1 (b.createBackup host).2.2
  | restoreFromBackup {b : Backed} {host : Host} (before : Written b host) :
      Written (b.restoreFromBackup host).2.1 (b.restoreFromBackup host).2.2

/-- A store in synchronous mode that starts blank or has just loaded its backup,
after calls whose updates are taken, in cells of neither layer. -/
inductive Mirrored : Backed → Host → Prop
  | blank {backup : Store} {host : Host} (blank : backup.IsBlank host) :
      Mirrored (.«over» backup .synchronous) host
  | loaded {b b' : Backed} {host host' : Host} (written : Written b host)
      (mode : b.mode = .synchronous) (load : b.restoreFromBackup host = (.ok (), b', host')) :
      Mirrored b' host'
  | alloc {b : Backed} {host : Host} (m : Metric) (before : Mirrored b host) :
      Mirrored b (host.alloc m).2
  | add {b : Backed} {host : Host} {hs answers : List Handle} (before : Mirrored b host)
      (fresh : b.Fresh host hs) (taken : (b.add host hs).1 = .ok answers) :
      Mirrored (b.add host hs).2.1 (b.add host hs).2.2
  | restore {b : Backed} {host : Host} (s : Snapshot) (before : Mirrored b host) :
      Mirrored (b.restore host s).2.1 (b.restore host s).2.2
  | createBackup {b : Backed} {host : Host} (before : Mirrored b host) :
      Mirrored (b.createBackup host).2.1 (b.createBackup host).2.2
  | restoreFromBackup {b : Backed} {host : Host} (before : Mirrored b host) :
      Mirrored (b.restoreFromBackup host).2.1 (b.restoreFromBackup host).2.2

/-- The backup shows what the memory shows, up to what it does not tell apart, and
would answer updates that are taken as the store does.  Only a snapshot that is
none of metrics is refused. -/
structure Mirrors (b : Backed) (host : Host) : Prop where
  snapshots : (b.backup.snapshot host).1 = .ok (b.backup.reads (b.memory.snapshot host.heap))
  answers : ∀ hs answers, b.Fresh host hs → (b.add host hs).1 = .ok answers →
    ∃ copies, (b.backup.add host hs).1 = .ok copies ∧
      (b.backup.add host hs).2.2.getAll copies = (b.add host hs).2.2.getAll answers
  restores : ∀ s, (b.restore host s).1 = s.parse.map fun _ => ()
  backs : (b.createBackup host).1 = .ok ()
  loads : (b.restoreFromBackup host).1 = .ok ()

section

variable {b : Backed} {host : Host} {c d : Content} {hs : List Handle}

/-! ## Any calls -/

/-- Both layers hold contents, whatever calls are made. -/
theorem Written.layers (h : Written b host) : ∃ c d, b.Layers host c d := by
  induction h with
  | blank mode blank =>
    exact ⟨[], [], layers_over (Session.holds_of_isBlank blank) Content.sound_nil mode⟩
  | renewed mode _ ih =>
    rcases ih with ⟨c, d, hlayers⟩
    exact ⟨[], d, layers_over hlayers.backup hlayers.sound_backup mode⟩
  | restarted mode _ durable ih =>
    rcases ih with ⟨c, d, hlayers⟩
    exact ⟨[], d, layers_over (hlayers.backup.restarted durable) hlayers.sound_backup mode⟩
  | alloc m _ ih =>
    rcases ih with ⟨c, d, hlayers⟩
    exact ⟨c, d, hlayers.alloc m⟩
  | add _ valid ih =>
    rcases ih with ⟨c, d, hlayers⟩
    exact hlayers.exists_add valid
  | restore s _ ih =>
    rcases ih with ⟨c, d, hlayers⟩
    cases hparse : s.parse with
    | ok ms =>
      rcases hlayers.restore hparse with ⟨b', host', hrestore, hlayers', -⟩
      rw [hrestore]
      exact ⟨_, _, hlayers'⟩
    | error e =>
      rw [restore_of_error _ _ hparse]
      exact ⟨c, d, hlayers⟩
  | createBackup _ ih =>
    rcases ih with ⟨c, d, hlayers⟩
    rcases hlayers.createBackup with ⟨d', b', host', hcreate, hlayers', -⟩
    rw [hcreate]
    exact ⟨c, d', hlayers'⟩
  | restoreFromBackup _ ih =>
    rcases ih with ⟨c, d, hlayers⟩
    rcases hlayers.restoreFromBackup with ⟨c', b', host', hrestore, hlayers', -⟩
    rw [hrestore]
    exact ⟨c', _, hlayers'⟩

/-! ## Mirrors -/

/-- Updates in fresh cells are only taken if they are finite. -/
theorem Layers.isFinite_of_add (h : b.Layers host c d) (hfresh : b.Fresh host hs)
    {answers : List Handle} (htaken : (b.add host hs).1 = .ok answers) :
    ∀ n ∈ host.getAll hs, n.value.isFinite = true := by
  rcases Session.finite_or_refused (host.getAll hs) with
    hfinite | ⟨before, n, after, hsplit, hbefore, hn⟩
  · exact hfinite
  · rcases hfresh.given with ⟨hgiven, -⟩
    rw [hsplit] at hgiven
    rcases Memory.add_of_not_isFinite h.memory hgiven hbefore hn with ⟨heap, memory, hadd, -⟩
    rcases b with ⟨m, backup, mode⟩
    simp only [Backed.add, hadd] at htaken
    cases htaken

/-- The layers of a store in synchronous mode hold the same. -/
def MirrorsContent (b : Backed) (host : Host) : Prop :=
  ∃ c d, b.Layers host c d ∧ c.Same d ∧ b.mode = .synchronous

/-- Layers that mirror each other have the same contents. -/
theorem Mirrored.mirrorsContent (h : Mirrored b host) : b.MirrorsContent host := by
  induction h with
  | blank blank =>
    exact ⟨[], [], layers_over (Session.holds_of_isBlank blank) Content.sound_nil _,
      Content.Same.refl [], rfl⟩
  | loaded written hmode load =>
    rcases written.layers with ⟨c, d, hlayers⟩
    rcases hlayers.restoreFromBackup with ⟨c', b', host', hrestore, hlayers', hsame, hmode'⟩
    rw [hrestore] at load
    cases load
    exact ⟨c', _, hlayers', hsame.symm, hmode'.trans hmode⟩
  | alloc m _ ih =>
    rcases ih with ⟨c, d, hlayers, hsame, hmode⟩
    exact ⟨c, d, hlayers.alloc m, hsame, hmode⟩
  | add _ fresh taken ih =>
    rcases ih with ⟨c, d, hlayers, hsame, hmode⟩
    have hfinite := hlayers.isFinite_of_add fresh taken
    rcases hlayers.add fresh hfinite with ⟨answers, b', host', hadd, hlayers', -, hmode'⟩
    rw [hmode] at hlayers'
    rw [hadd]
    exact ⟨_, _, hlayers', (hsame.add _).2, hmode'.trans hmode⟩
  | restore s _ ih =>
    rcases ih with ⟨c, d, hlayers, hsame, hmode⟩
    cases hparse : s.parse with
    | ok ms =>
      rcases hlayers.restore hparse with ⟨b', host', hrestore, hlayers', hmode'⟩
      rw [hmode] at hlayers'
      rw [hrestore]
      exact ⟨ms, ms, hlayers', Content.Same.refl ms, hmode'.trans hmode⟩
    | error e =>
      rw [restore_of_error _ _ hparse]
      exact ⟨c, d, hlayers, hsame, hmode⟩
  | createBackup _ ih =>
    rcases ih with ⟨c, d, hlayers, -, hmode⟩
    rcases hlayers.createBackup with ⟨d', b', host', hcreate, hlayers', hsame', hmode'⟩
    rw [hcreate]
    exact ⟨c, d', hlayers', hsame', hmode'.trans hmode⟩
  | restoreFromBackup _ ih =>
    rcases ih with ⟨c, d, hlayers, -, hmode⟩
    rcases hlayers.restoreFromBackup with ⟨c', b', host', hrestore, hlayers', hsame', hmode'⟩
    rw [hrestore]
    exact ⟨c', _, hlayers', hsame'.symm, hmode'.trans hmode⟩

/-- In synchronous mode the backup mirrors the memory after every call. -/
theorem Mirrored.mirrors (h : Mirrored b host) : b.Mirrors host := by
  rcases h.mirrorsContent with ⟨c, d, hlayers, hsame, -⟩
  constructor
  · rcases hlayers.backup.snapshot hlayers.sound_backup.finite with ⟨host', hsnapshot, -⟩
    have hshown := hsame.ofMetrics_eq hlayers.sound.distinct hlayers.sound_backup.distinct
    rw [hsnapshot, hlayers.memory.snapshot_eq, hshown]
  · intro hs answers hfresh htaken
    have hfinite := hlayers.isFinite_of_add hfresh htaken
    rcases hlayers.add hfresh hfinite with ⟨answers', b', host', hadd, -, hanswers, -⟩
    rcases hlayers.backup.add hlayers.sound_backup.finite hfresh.given.2 hfinite with
      ⟨copies, s, hcopy, -, hcopies, -⟩
    rw [hadd] at htaken ⊢
    cases htaken
    simp only at hcopy
    rw [hcopy]
    exact ⟨copies, rfl, by rw [hcopies, hanswers, (hsame.add _).1]⟩
  · intro s
    cases hparse : s.parse with
    | ok ms =>
      rcases hlayers.restore hparse with ⟨b', host', hrestore, -⟩
      rw [hrestore]
      rfl
    | error e =>
      rw [restore_of_error b host hparse]
      rfl
  · rcases hlayers.createBackup with ⟨d', b', host', hcreate, -⟩
    rw [hcreate]
  · rcases hlayers.restoreFromBackup with ⟨c', b', host', hrestore, -⟩
    rw [hrestore]

/-- A database in memory as the backup of a store that takes a total and a reading
twice, then refuses a snapshot, and then loads the backup. -/
theorem mirrors_into_database :
    let backup : Store := .database ⟨0, none⟩
    let host := ((Host.ofDisk (Disk.withDirectory ["data"]).addTable.2).alloc
      ⟨"polls", .total (.clamp 5)⟩).2
    let host := (host.alloc ⟨"load", .reading (.zero true)⟩).2
    let hs : List Handle := [⟨0⟩, ⟨1⟩, ⟨0⟩, ⟨1⟩]
    let malformed := Snapshot.put .empty "counter" "polls" "many"
    let b := Backed.«over» backup .synchronous
    let added := (b.add host hs).2
    let refused := (added.1.restore added.2 malformed).2
    let loaded := (refused.1.restoreFromBackup refused.2).2
    loaded.1.Mirrors loaded.2 := by
  intro backup host₁ host hs malformed b added refused loaded
  have hblank : Mirrored b host := .alloc _ (.alloc _ (.blank ⟨by decide, by decide⟩))
  have hfresh : b.Fresh host hs := by
    intro x hx
    have hvalid : ∀ x ∈ hs, x.index < host.heap.size := by decide
    exact ⟨hvalid x hx, List.not_mem_nil, List.not_mem_nil⟩
  have hfinite : ∀ n ∈ host.getAll hs, n.value.isFinite = true := by decide
  rcases hblank.mirrorsContent with ⟨c, d, hlayers, -⟩
  rcases hlayers.add hfresh hfinite with ⟨answers, b', host', hadd, -⟩
  have htaken : (b.add host hs).1 = .ok answers := congrArg Prod.fst hadd
  have hadded : Mirrored added.1 added.2 := .add hblank hfresh htaken
  have hrefused : Mirrored refused.1 refused.2 := .restore malformed hadded
  have hloaded : Mirrored loaded.1 loaded.2 := .restoreFromBackup hrefused
  exact hloaded.mirrors

end

end Backed

end MetricRelay
