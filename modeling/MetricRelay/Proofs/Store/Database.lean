import MetricRelay.Proofs.Database.Files
import MetricRelay.Proofs.Store.SignOfZero
import MetricRelay.Store.Database

/-!
# The store in a database

A database that can be read and changed can still be read and changed after every
call, so a store in a database never fails on a disk that nobody else changes.
Its rows are those of a list of metrics, except that a row does not tell the two
zeros apart.

Main definitions:

- `Database.Holds`: the content of a store in a database.

Main results:

- `TableRow.represents`: rows of metrics take updates as metrics do.
- `Database.Holds.add`, `Database.Holds.restore`: the content after a call.
-/

namespace MetricRelay

/-! ## Rows -/

namespace TableRow

/-- A finite value is read back from its row, without the sign of a zero. -/
theorem valueOf_ofMetric {m : Metric} (h : m.value.isFinite = true) :
    valueOf m.key (ofMetric m) = .ok m.value.unsignZero := by
  rcases m with ⟨name, value⟩
  cases value with
  | total n => rfl
  | reading x =>
    cases x with
    | nan => cases h
    | infinite negative => cases h
    | finite negative rank => rfl

/-- A row has the key of its metric. -/
theorem key_ofMetric (m : Metric) : (ofMetric m).key = m.key := by
  unfold ofMetric
  split <;> rfl

/-- Rows of metrics hold them up to the sign of zero. -/
theorem represents : form.Represents Value.unsignZero where
  isOf_ofMetric key m := by
    have hof : form.isOf key (ofMetric m) = decide ((ofMetric m).key = key) := rfl
    rw [key_ofMetric] at hof
    exact hof
  value_ofMetric _ hm := valueOf_ofMetric hm
  onto_shown v w := by
    cases v <;> cases w <;> rfl
  kind_shown := Value.kind_unsignZero

/-- The snapshot of the rows of metrics is that of the metrics as the rows show
them. -/
theorem snapshot_map {c : Content} (h : c.IsFinite) :
    snapshot (c.map ofMetric) = .ok (Snapshot.ofMetrics (c.map Metric.unsignZero)) := by
  unfold snapshot Snapshot.ofMetrics
  generalize Dictionary.empty = s
  induction c generalizing s with
  | nil => rfl
  | cons m c ih =>
    have hvalue := valueOf_ofMetric (h m List.mem_cons_self)
    have hput : putIn s (ofMetric m) = .ok (Snapshot.putMetric s m.unsignZero) := by
      rw [putIn, key_ofMetric, hvalue]
      simp only [bind, Except.bind, pure, Except.pure, Metric.key, Snapshot.putMetric,
        Metric.unsignZero, Metric.kind, Value.kind_unsignZero]
    rw [List.map_cons, List.foldlM_cons, hput, List.map_cons, List.foldl_cons]
    exact ih (fun n hn => h n (List.mem_cons_of_mem _ hn)) _

end TableRow

namespace Database

variable {d : Database} {disk : Disk} {c : Content}

/-! ## Reading and writing -/

/-- The rows are those of the table, if the file can be read. -/
theorem rows_eq_ok_iff {rows : List TableRow} :
    d.rows disk = .ok rows ↔
      (∀ f ∈ d.file, f.checkRead disk = .ok ()) ∧ disk.table? d.number = some rows := by
  unfold Database.rows
  cases hfile : d.file with
  | none =>
    cases htable : disk.table? d.number <;> simp
  | some f =>
    cases hcheck : f.checkRead disk with
    | error e => simp [hcheck, bind, Except.bind]
    | ok u => cases htable : disk.table? d.number <;> simp [hcheck, bind, Except.bind]

/-- What can be written can be read, and its file can be written. -/
theorem checkWrite_eq_ok_iff :
    d.checkWrite disk = .ok () ↔
      (∃ rows, d.rows disk = .ok rows) ∧ ∀ f ∈ d.file, f.checkWrite disk d.number = .ok () := by
  unfold Database.checkWrite
  cases hrows : d.rows disk with
  | error e => simp [discard, Functor.discard, Functor.mapConst, Except.map, bind, Except.bind]
  | ok rows =>
    cases hfile : d.file <;>
      simp [discard, Functor.discard, Functor.mapConst, Except.map, bind, Except.bind, pure,
        Except.pure]

/-- A store in a database has the rows of a content, and can be changed. -/
structure Holds (d : Database) (disk : Disk) (c : Content) : Prop where
  table_eq : disk.table? d.number = some (c.map TableRow.ofMetric)
  works : ∀ f ∈ d.file, f.Works disk d.number

/-- A store without rows that can be changed holds nothing. -/
theorem holds_empty (hrows : d.rows disk = .ok []) (hwrite : d.checkWrite disk = .ok ()) :
    d.Holds disk [] := by
  rcases rows_eq_ok_iff.1 hrows with ⟨hread, htable⟩
  rcases checkWrite_eq_ok_iff.1 hwrite with ⟨-, hcheck⟩
  exact ⟨htable, fun f hf => ⟨hread f hf, hcheck f hf⟩⟩

/-- A database has one row for each metric that it holds. -/
theorem Holds.rows_eq (h : d.Holds disk c) : d.rows disk = .ok (c.map TableRow.ofMetric) :=
  rows_eq_ok_iff.2 ⟨fun f hf => (h.works f hf).read, h.table_eq⟩

theorem table?_of_tables_eq {disk' : Disk} (h : disk'.tables = disk.tables) (number : Nat) :
    disk'.table? number = disk.table? number := by
  unfold Disk.table?
  rw [h]

/-- Reading the file of a store leaves its content. -/
theorem Holds.afterRead (h : d.Holds disk c) {f : DatabaseFile} (hfile : d.file = some f) :
    d.Holds (f.afterRead disk) c := by
  refine ⟨?_, fun g hg => ?_⟩
  · rw [table?_of_tables_eq (f.tables_afterRead disk)]
    exact h.table_eq
  · rw [hfile] at hg
    cases hg
    exact (h.works f hfile).afterRead

/-- After the rows were read they are still there. -/
theorem Holds.read (h : d.Holds disk c) :
    ∃ disk', d.read disk = (.ok (c.map TableRow.ofMetric), disk') ∧ d.Holds disk' c := by
  unfold Database.read
  rw [h.rows_eq]
  cases hfile : d.file with
  | none => exact ⟨disk, rfl, h⟩
  | some f => exact ⟨f.afterRead disk, rfl, h.afterRead hfile⟩

/-- A table that is there can be set. -/
theorem table?_setTable {number : Nat} {old : List TableRow} (h : disk.table? number = some old)
    (rows : List TableRow) : (disk.setTable number rows).table? number = some rows := by
  unfold Disk.table? Disk.setTable at *
  have hlt : number < disk.tables.length := by
    by_contra hnot
    rw [List.getElem?_eq_none (Nat.le_of_not_lt hnot)] at h
    cases h
  rw [List.getElem?_set_self hlt]
  rfl

/-- A database that works takes any rows, and works again. -/
theorem put_of_works {old : List TableRow} (htable : disk.table? d.number = some old)
    (hworks : ∀ f ∈ d.file, f.Works disk d.number) (rows : List TableRow) :
    ∃ disk', d.put disk rows = (.ok (), disk') ∧ disk'.table? d.number = some rows ∧
      ∀ f ∈ d.file, f.Works disk' d.number := by
  have hrows : d.rows disk = .ok old := rows_eq_ok_iff.2 ⟨fun f hf => (hworks f hf).read, htable⟩
  have hwrite : d.checkWrite disk = .ok () :=
    checkWrite_eq_ok_iff.2 ⟨⟨_, hrows⟩, fun f hf => (hworks f hf).write⟩
  unfold Database.put
  rw [hwrite]
  cases hfile : d.file with
  | none =>
    refine ⟨_, rfl, table?_setTable htable _, ?_⟩
    intro f hf
    cases hf
  | some f =>
    have htable' : (f.afterWrite disk).table? d.number = some old := by
      rw [table?_of_tables_eq (f.tables_afterWrite disk)]
      exact htable
    refine ⟨_, rfl, table?_setTable htable' _, ?_⟩
    intro g hg
    cases hg
    exact (hworks f hfile).afterWrite.setTable _

/-- After the rows are replaced the new ones are there. -/
theorem Holds.put (h : d.Holds disk c) (c' : Content) :
    ∃ disk', d.put disk (c'.map TableRow.ofMetric) = (.ok (), disk') ∧ d.Holds disk' c' := by
  rcases put_of_works h.table_eq h.works (c'.map TableRow.ofMetric) with
    ⟨disk', hput, htable, hworks⟩
  exact ⟨disk', hput, htable, hworks⟩

/-- A store in a database can be changed. -/
theorem Holds.checkWrite_eq (h : d.Holds disk c) : d.checkWrite disk = .ok () :=
  checkWrite_eq_ok_iff.2 ⟨⟨_, h.rows_eq⟩, fun f hf => (h.works f hf).write⟩

/-- A database that can be changed takes updates in as any rows do. -/
theorem takeIn_of_works (h : d.checkWrite disk = .ok ()) (ms : List Metric)
    (rows : List TableRow) : d.takeIn disk ms rows = TableRow.form.mergeAll ms rows := by
  induction ms generalizing rows with
  | nil => rfl
  | cons m ms ih =>
    rw [takeIn, RowForm.mergeAll]
    simp only [h, ih, bind, Except.bind]

/-! ## Failures -/

theorem fst_read (d : Database) (disk : Disk) : (d.read disk).1 = d.rows disk := by
  unfold Database.read
  cases d.rows disk <;> cases d.file <;> rfl

/-- Reading a database leaves its rows, also if it fails. -/
theorem rows_read (d : Database) (disk : Disk) : d.rows (d.read disk).2 = d.rows disk := by
  unfold Database.read
  cases hrows : d.rows disk with
  | error e => exact hrows
  | ok rows =>
    cases hfile : d.file with
    | none => exact hrows
    | some f =>
      rcases rows_eq_ok_iff.1 hrows with ⟨hread, htable⟩
      refine rows_eq_ok_iff.2 ⟨fun g hg => ?_, ?_⟩
      · rw [hfile] at hg
        cases hg
        exact DatabaseFile.checkRead_afterRead (hread f hfile)
      · rw [← htable]
        exact table?_of_tables_eq (f.tables_afterRead disk) d.number

/-- Reading a database leaves the rows of all. -/
theorem tables_read (d : Database) (disk : Disk) : (d.read disk).2.tables = disk.tables := by
  unfold Database.read
  split
  · rename_i f _ _
    exact f.tables_afterRead disk
  · rfl

/-- A change that fails leaves the disk. -/
theorem put_of_error {rows : List TableRow} {e : Failure} (h : (d.put disk rows).1 = .error e) :
    (d.put disk rows).2 = disk := by
  unfold Database.put at h ⊢
  cases hwrite : d.checkWrite disk with
  | error e' => rfl
  | ok u =>
    rw [hwrite] at h
    cases h

/-- A change that succeeds leaves exactly the rows that were written. -/
theorem rows_put {rows : List TableRow} (h : (d.put disk rows).1 = .ok ()) :
    d.rows (d.put disk rows).2 = .ok rows := by
  have hwrite : d.checkWrite disk = .ok () := by
    unfold Database.put at h
    cases hwrite : d.checkWrite disk with
    | error e =>
      rw [hwrite] at h
      cases h
    | ok u => rfl
  rcases checkWrite_eq_ok_iff.1 hwrite with ⟨⟨old, hold⟩, hfree⟩
  rcases rows_eq_ok_iff.1 hold with ⟨hread, htable⟩
  rcases put_of_works htable (fun f hf => ⟨hread f hf, hfree f hf⟩) rows with
    ⟨disk', hput, htable', hworks⟩
  rw [hput]
  exact rows_eq_ok_iff.2 ⟨fun f hf => (hworks f hf).read, htable'⟩

/-- Updates that fail leave what reading the rows has left, whichever of them is refused
and whatever was written before it. -/
theorem add_of_failure {ms : List Metric} {e : Failure} (h : (d.add disk ms).1 = .error e) :
    (d.add disk ms).2 = (d.read disk).2 := by
  unfold Database.add at h ⊢
  by_cases hnil : ms = []
  · rw [if_pos hnil] at h
    cases h
  · rw [if_neg hnil] at h ⊢
    rcases hfound : d.read disk with ⟨found, disk'⟩
    rw [hfound] at h
    simp only at h ⊢
    cases htaken : found >>= d.takeIn disk' ms with
    | error e' => rfl
    | ok taken =>
      rcases taken with ⟨answers, rows⟩
      rw [htaken] at h
      simp only at h ⊢
      cases hput : (d.put disk' rows).1 with
      | error e' => exact put_of_error hput
      | ok u =>
        rw [hput] at h
        cases h

/-- A snapshot that is not taken leaves the disk. -/
theorem restore_of_failure {s : Snapshot} {e : Failure} (h : (d.restore disk s).1 = .error e) :
    (d.restore disk s).2 = disk := by
  unfold Database.restore at h ⊢
  cases hrows : TableRow.form.ofSnapshot s with
  | error e' => rfl
  | ok rows =>
    rw [hrows] at h
    exact put_of_error h

/-- A snapshot that is taken leaves no other rows. -/
theorem rows_restore {s : Snapshot} {ms : List Metric} (hparse : s.parse = .ok ms)
    (h : (d.restore disk s).1 = .ok ()) :
    d.rows (d.restore disk s).2 = .ok (ms.map TableRow.ofMetric) := by
  unfold Database.restore RowForm.ofSnapshot at h ⊢
  rw [hparse] at h ⊢
  exact rows_put h

/-! ## Calls -/

/-- Finite updates are added one after the other. -/
theorem Holds.add (h : d.Holds disk c) (hc : c.IsFinite) {ms : List Metric}
    (hfinite : ∀ m ∈ ms, m.value.isFinite = true) :
    ∃ disk', d.add disk ms = (.ok (Content.add ms c).1, disk') ∧
      d.Holds disk' (Content.add ms c).2 := by
  unfold Database.add
  by_cases hnil : ms = []
  · rw [if_pos hnil, hnil]
    exact ⟨disk, rfl, h⟩
  · rcases h.read with ⟨disk', hread, hholds⟩
    rcases hholds.put (Content.add ms c).2 with ⟨disk'', hput, hholds'⟩
    refine ⟨disk'', ?_, hholds'⟩
    have hmerge := TableRow.represents.mergeAll_map hc hfinite
    have hof : TableRow.form.ofMetric = TableRow.ofMetric := rfl
    rw [hof, ← takeIn_of_works hholds.checkWrite_eq] at hmerge
    rw [if_neg hnil, hread]
    simp only [bind, Except.bind, hmerge, hput]
    rfl

/-- The first update that is not finite is refused, and with it all of them. -/
theorem Holds.add_of_not_isFinite (h : d.Holds disk c) (hc : c.IsFinite) {m : Metric}
    {before : List Metric} (hbefore : ∀ k ∈ before, k.value.isFinite = true)
    (hm : m.value.isFinite = false) (after : List Metric) :
    ∃ disk', d.add disk (before ++ m :: after) = (.error m.refusal, disk') ∧ d.Holds disk' c := by
  rcases h.read with ⟨disk', hread, hholds⟩
  refine ⟨disk', ?_, hholds⟩
  have hnil : before ++ m :: after ≠ [] :=
    List.append_ne_nil_of_right_ne_nil before (List.cons_ne_nil m after)
  have hmerge := TableRow.represents.mergeAll_map_of_not_isFinite hc hbefore hm after
  have hof : TableRow.form.ofMetric = TableRow.ofMetric := rfl
  rw [hof, ← takeIn_of_works hholds.checkWrite_eq] at hmerge
  unfold Database.add
  rw [if_neg hnil, hread]
  simp only [bind, Except.bind, hmerge]

/-- The metric of a key. -/
theorem Holds.get (h : d.Holds disk c) (hc : c.IsFinite) (key : Key) :
    ∃ disk', d.get disk key = ((c.get key).map Metric.unsignZero, disk') ∧ d.Holds disk' c := by
  rcases h.read with ⟨disk', hread, hholds⟩
  refine ⟨disk', ?_, hholds⟩
  have hget := TableRow.represents.get_map hc key
  unfold Database.get
  rw [hread]
  exact Prod.ext hget rfl

/-- A snapshot of a database is that of its contents, without signs of zeros. -/
theorem Holds.snapshot (h : d.Holds disk c) (hc : c.IsFinite) :
    ∃ disk', d.snapshot disk = (.ok (Snapshot.unsignZero (Snapshot.ofMetrics c)), disk') ∧
      d.Holds disk' c := by
  rcases h.read with ⟨disk', hread, hholds⟩
  refine ⟨disk', ?_, hholds⟩
  unfold Database.snapshot
  rw [hread, ← Content.ofMetrics_unsignZero hc]
  exact Prod.ext (TableRow.snapshot_map hc) rfl

/-- A snapshot of metrics becomes the content. -/
theorem Holds.restore (h : d.Holds disk c) {s : Snapshot} {ms : List Metric}
    (hparse : s.parse = .ok ms) :
    ∃ disk', d.restore disk s = (.ok (), disk') ∧ d.Holds disk' ms := by
  rcases h.put ms with ⟨disk', hput, hholds⟩
  refine ⟨disk', ?_, hholds⟩
  rw [Database.restore, RowForm.ofSnapshot, hparse]
  exact hput

/-- Anything else is refused and changes nothing. -/
theorem restore_of_error (d : Database) (disk : Disk) {s : Snapshot} {e : Failure}
    (hparse : s.parse = .error e) : d.restore disk s = (.error e, disk) := by
  rw [Database.restore, RowForm.ofSnapshot, hparse]
  rfl

end Database

end MetricRelay
