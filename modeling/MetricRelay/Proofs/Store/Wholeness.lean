import MetricRelay.Proofs.Store.Database
import MetricRelay.Proofs.Store.File
import MetricRelay.Store.Basic

/-!
# Whole writes

A batch may be refused at any of its updates, by what is stored for an earlier or a later
one, by the disk while the draft is written, or by what is in the way when it is to
replace the file.  Whatever a store in a file or in a database finds and whatever it is
given, a call that fails takes nothing away from what was there and adds nothing to it.

Main definitions:

- `Database.Unharmed`: on another disk a database is what it was.
- `Store.FailsWhole`: what calls of a store leave when they fail.

Main results:

- `Database.unharmed_add` and `Database.unharmed_restore`: calls of a database that fail.
- `Store.writes_whole`: every store in a file and every store in a database.
-/

namespace MetricRelay

/-! ## Databases -/

namespace Database

variable {d : Database} {disk : Disk}

/-- On another disk a database has the rows that it had, and so has every other one. -/
structure Unharmed (d : Database) (disk disk' : Disk) : Prop where
  rows : d.rows disk' = d.rows disk
  table : disk'.table? d.number = disk.table? d.number
  tables : disk'.tables = disk.tables

theorem Unharmed.refl (d : Database) (disk : Disk) : d.Unharmed disk disk := ⟨rfl, rfl, rfl⟩

/-- Reading only touches what is beside a database. -/
theorem unharmed_read (d : Database) (disk : Disk) : d.Unharmed disk (d.read disk).2 :=
  ⟨d.rows_read disk, table?_of_tables_eq (d.tables_read disk) d.number, d.tables_read disk⟩

/-- Updates that fail harm nothing, whichever of them is refused. -/
theorem unharmed_add {ms : List Metric} {e : Failure} (h : (d.add disk ms).1 = .error e) :
    d.Unharmed disk (d.add disk ms).2 := by
  rw [add_of_failure h]
  exact d.unharmed_read disk

/-- A snapshot that is not taken harms nothing. -/
theorem unharmed_restore {s : Snapshot} {e : Failure} (h : (d.restore disk s).1 = .error e) :
    d.Unharmed disk (d.restore disk s).2 := by
  rw [restore_of_failure h]
  exact .refl d disk

end Database

/-! ## Stores -/

namespace Store

/-- A store fails as a whole if every call of it that fails leaves the store, all cells
and what it keeps on the disk as they were. -/
structure FailsWhole (s : Store) (host : Host) (Unharmed : Disk → Disk → Prop) : Prop where
  add : ∀ {hs e}, (s.add host hs).1 = .error e →
    (s.add host hs).2.1 = s ∧ (s.add host hs).2.2.heap = host.heap ∧
      Unharmed host.disk (s.add host hs).2.2.disk
  restore : ∀ {content e}, (s.restore host content).1 = .error e →
    (s.restore host content).2.1 = s ∧ (s.restore host content).2.2.heap = host.heap ∧
      Unharmed host.disk (s.restore host content).2.2.disk

/-- No cell is made for an answer that is none. -/
theorem answer_of_error (call : Outcome (List Metric) × Disk) (host : Host) {e : Failure}
    (h : (answer call.1 { host with disk := call.2 }).1 = .error e) :
    call.1 = .error e ∧ (answer call.1 { host with disk := call.2 }).2.heap = host.heap ∧
      (answer call.1 { host with disk := call.2 }).2.disk = call.2 := by
  rcases call with ⟨result, disk⟩
  cases result with
  | error e' =>
    cases h
    exact ⟨rfl, rfl, rfl⟩
  | ok ms => cases h

/-- A file is unharmed by what fails. -/
theorem failsWhole_file (f : MetricsFile) (host : Host) :
    (file f).FailsWhole host f.Unharmed where
  add := by
    intro hs e h
    rcases answer_of_error (f.add host.disk (host.getAll hs)) host h with ⟨hadd, hheap, hdisk⟩
    refine ⟨rfl, hheap, ?_⟩
    have hunharmed := f.unharmed_add hadd
    rw [← hdisk] at hunharmed
    exact hunharmed
  restore h := ⟨rfl, rfl, f.unharmed_restore h⟩

/-- A database is unharmed by what fails. -/
theorem failsWhole_database (d : Database) (host : Host) :
    (database d).FailsWhole host d.Unharmed where
  add := by
    intro hs e h
    rcases answer_of_error (d.add host.disk (host.getAll hs)) host h with ⟨hadd, hheap, hdisk⟩
    refine ⟨rfl, hheap, ?_⟩
    have hunharmed := d.unharmed_add hadd
    rw [← hdisk] at hunharmed
    exact hunharmed
  restore h := ⟨rfl, rfl, d.unharmed_restore h⟩

/-- Whatever is on the disk and whatever they are given, calls of stores in a file and in
a database that fail harm nothing, and neither does a draft that is not finished. -/
theorem writes_whole (host : Host) :
    (∀ f, (file f).FailsWhole host f.Unharmed ∧
      ∀ {content drafted}, host.disk.write f.draftPath content = .ok drafted →
        f.Unharmed host.disk drafted) ∧
    ∀ d, (database d).FailsWhole host d.Unharmed :=
  ⟨fun f => ⟨failsWhole_file f host, fun h => f.unharmed_of_write_draft h⟩,
    fun d => failsWhole_database d host⟩

theorem exists_error_of_toOption {α : Type} {result : Outcome α} (h : result.toOption = none) :
    ∃ e, result = .error e := by
  cases result with
  | error e => exact ⟨e, rfl⟩
  | ok a => cases h

/-- A file with a text that is no total, without and with a directory in the way of its
draft, and a table with a row that has no value.  Updates that are merged before the batch
fails are not kept. -/
theorem writes_whole_after_half_a_batch :
    let f : MetricsFile := ⟨"metrics.json"⟩
    let d : Database := ⟨0, none⟩
    let row (name : String) (delta : Option Count) : TableRow := ⟨⟨.counter, name⟩, delta, none⟩
    let records :=
      "[[\"counter\",\"kept\",\"2\"],[\"counter\",\"broken\",\"x\"],[\"timer\",\"kept\",\"1\"]]"
    let disk : Disk := { (Disk.withDirectory ["data"]).put ["data", "metrics.json"]
      (.file (Utf8.encode records)) with
      tables := [some [row "kept" (some (.clamp 2)), row "broken" none]] }
    let given := (Host.ofDisk disk).allocAll
      [⟨"fresh", .total (.clamp 1)⟩, ⟨"kept", .total (.clamp 3)⟩, ⟨"broken", .total (.clamp 1)⟩]
    let blocked : Host :=
      { given.2 with disk := disk.put ["data", "metrics.json.tmp"] .directory }
    (((file f).add given.2 given.1).1.toOption = none ∧
      f.Unharmed disk ((file f).add given.2 given.1).2.2.disk) ∧
    (((file f).add blocked (given.1.take 2)).1.toOption = none ∧
      f.Unharmed blocked.disk ((file f).add blocked (given.1.take 2)).2.2.disk) ∧
    ((database d).add given.2 given.1).1.toOption = none ∧
      d.Unharmed disk ((database d).add given.2 given.1).2.2.disk := by
  intro f d row records disk given blocked
  have hmalformed : ((file f).add given.2 given.1).1.toOption = none := by decide +kernel
  have hblocked : ((file f).add blocked (given.1.take 2)).1.toOption = none := by decide +kernel
  have hvalueless : ((database d).add given.2 given.1).1.toOption = none := by decide +kernel
  refine ⟨⟨hmalformed, ?_⟩, ⟨hblocked, ?_⟩, hvalueless, ?_⟩
  · rcases exists_error_of_toOption hmalformed with ⟨e, hadd⟩
    exact (((writes_whole given.2).1 f).1.add hadd).2.2
  · rcases exists_error_of_toOption hblocked with ⟨e, hadd⟩
    exact (((writes_whole blocked).1 f).1.add hadd).2.2
  · rcases exists_error_of_toOption hvalueless with ⟨e, hadd⟩
    exact (((writes_whole given.2).2 d).add hadd).2.2

end Store

end MetricRelay
