import MetricRelay.Proofs.Database.Files
import MetricRelay.Service
import MetricRelay.Store.Backed

/-!
# Whose fault a failure is

The same failures arise when a client's text is read and when a stored one is.  The
service tells them apart by where they arise: what fails while a message is
understood is put down to the client, and what fails in a store to the store.  The
one failure that a store may pass on is that it has no such metric.  No update
fails with that, whatever is in the store, on its disk or in its database.

Main definitions:

- `Outcome.FailsBy`: the failures that an outcome may have.
- `Failure.IsClients` and `Failure.IsStores`: to whom the service puts a failure down.

Main results:

- `Store.add_isStores` and `Backed.add_isStores`: what fails in an update of a store is
  put down to the store.
-/

namespace MetricRelay

/-! ## Failures -/

/-- If an outcome is a failure, it is one of some kind. -/
def Outcome.FailsBy {α : Type} (P : Failure → Prop) (result : Outcome α) : Prop :=
  ∀ e, result = .error e → P e

namespace Outcome.FailsBy

variable {α β : Type} {P : Failure → Prop} {result : Outcome α}

theorem of_ok (x : α) : FailsBy P (.ok x : Outcome α) := by
  intro e h
  cases h

theorem of_error {e : Failure} (h : P e) : FailsBy P (.error e : Outcome α) := by
  intro e' h'
  cases h'
  exact h

theorem map (h : FailsBy P result) (f : α → β) : FailsBy P (result.map f) := by
  intro e he
  cases result with
  | error e' =>
    cases he
    exact h e rfl
  | ok x => cases he

theorem bind (h : FailsBy P result) {f : α → Outcome β} (hf : ∀ x, FailsBy P (f x)) :
    FailsBy P (result >>= f) := by
  intro e he
  cases result with
  | error e' =>
    cases he
    exact h e rfl
  | ok x => exact hf x e he

end Outcome.FailsBy

namespace Failure

/-- A failure that the service puts down to the client. -/
def IsClients (e : Failure) : Prop := e.fault = .badRequest ∨ e.fault = .notImplemented

/-- A failure that the service puts down to the store if it arises there. -/
def IsStores (e : Failure) : Prop := e.asStorage.fault = .internal

/-- While a message is understood every failure is the client's. -/
theorem isClients_asConversion (e : Failure) : e.asConversion.IsClients := by
  unfold asConversion
  cases hfault : e.fault with
  | badRequest => exact .inl hfault
  | notImplemented => exact .inr hfault
  | notFound => exact .inl rfl
  | forbidden => exact .inl rfl
  | internal => exact .inl rfl

/-- In a store a failure of a client is the store's. -/
theorem IsClients.isStores {e : Failure} (h : e.IsClients) : e.IsStores := by
  cases e with
  | notFound kind metric => rcases h with h | h <;> cases h
  | _ => rfl

end Failure

open Outcome (FailsBy)

/-! ## Values -/

/-- A value that is not finite is a fault of the client. -/
theorem Value.finite_isClients (v : Value) : FailsBy Failure.IsClients v.finite := by
  unfold Value.finite
  split
  · exact .of_ok v
  · exact .of_error (.inl rfl)

/-- A text without a value is the fault of who wrote it. -/
theorem Value.parse_isClients (kind : Kind) (raw : String) :
    FailsBy Failure.IsClients (Value.parse kind raw) := by
  unfold Value.parse
  cases kind with
  | counter =>
    simp only
    split
    · exact .of_ok _
    · exact .of_error (.inl rfl)
  | gauge =>
    simp only
    split
    · exact Value.finite_isClients _
    · exact .of_error (.inl rfl)

/-- An update that is refused is a fault of the client. -/
theorem Metric.update_isClients (m : Metric) (u : Value) :
    FailsBy Failure.IsClients (m.update u) := by
  refine (Value.finite_isClients u).bind fun u => ?_
  split
  · exact .of_ok _
  · exact .of_error (.inl rfl)

/-- A metric that cannot be added is a fault of the client. -/
theorem Metric.addTo_isClients (m : Metric) (kept : Option Value) :
    FailsBy Failure.IsClients (m.addTo kept) := by
  cases kept with
  | none => exact (Value.finite_isClients m.value).map _
  | some kept => exact Metric.update_isClients _ _

/-- What a client does wrong is the store's fault where a store does it. -/
theorem Outcome.FailsBy.isStores {α : Type} {result : Outcome α}
    (h : FailsBy Failure.IsClients result) : FailsBy Failure.IsStores result :=
  fun e he => (h e he).isStores

/-! ## Rows -/

namespace RowForm

variable {ρ : Type} {form : RowForm ρ}

/-- A row that cannot be read is a fault of the store. -/
theorem merge_isStores (h : ∀ key row, FailsBy Failure.IsStores (form.value key row)) (m : Metric)
    (rows : List ρ) : FailsBy Failure.IsStores (form.merge m rows) := by
  induction rows with
  | nil => exact (Metric.addTo_isClients m none).isStores.bind fun next => .of_ok _
  | cons row rows ih =>
    unfold merge
    split
    · refine (h m.key row).bind fun kept => ?_
      exact (Metric.addTo_isClients m (some kept)).isStores.bind fun next => .of_ok _
    · exact ih.bind fun x => .of_ok _

/-- A row that cannot be read is a fault of the store for a whole batch too. -/
theorem mergeAll_isStores (h : ∀ key row, FailsBy Failure.IsStores (form.value key row))
    (ms : List Metric) (rows : List ρ) : FailsBy Failure.IsStores (form.mergeAll ms rows) := by
  induction ms generalizing rows with
  | nil => exact .of_ok _
  | cons m ms ih =>
    refine (merge_isStores h m rows).bind fun x => ?_
    exact (ih x.2).bind fun y => .of_ok _

end RowForm

/-! ## Files -/

namespace MetricsFile

variable (f : MetricsFile) (disk : Disk)

/-- A file that cannot be read is a fault of the store. -/
theorem read_isStores : FailsBy Failure.IsStores (f.read disk) := by
  unfold read
  simp only
  split
  · exact .of_ok _
  · exact .of_error rfl
  · exact .of_error rfl
  · exact .of_error rfl
  · split
    · exact .of_ok _
    · exact .of_error rfl

/-- A file that cannot be written is a fault of the store. -/
theorem write_isStores (rs : List StoredRecord) : FailsBy Failure.IsStores (f.write disk rs).1 := by
  unfold write
  split
  · exact .of_error rfl
  · split
    · exact .of_error rfl
    · exact .of_ok ()

/-- An update of a file whose records are anything. -/
theorem add_isStores (ms : List Metric) : FailsBy Failure.IsStores (f.add disk ms).1 := by
  have hmerge (rs : List StoredRecord) :
      FailsBy Failure.IsStores (StoredRecord.form.mergeAll ms rs) :=
    RowForm.mergeAll_isStores
      (fun key row => (Value.parse_isClients key.kind row.value).isStores) ms rs
  unfold add
  cases hread : f.read disk with
  | error e => exact .of_error (f.read_isStores disk e hread)
  | ok rs =>
    simp only
    cases hmerged : StoredRecord.form.mergeAll ms rs with
    | error e => exact .of_error (hmerge rs e hmerged)
    | ok x => exact (f.write_isStores disk x.2).map _

end MetricsFile

/-! ## Databases -/

theorem DatabaseFile.checkRead_isStores (f : DatabaseFile) (disk : Disk) :
    FailsBy Failure.IsStores (f.checkRead disk) := by
  have hlock : FailsBy Failure.IsStores (f.checkLock disk) := by
    unfold checkLock
    split
    · exact .of_error rfl
    · exact .of_ok ()
  refine hlock.bind fun _ => ?_
  simp only [bind, Except.bind, pure, Except.pure, throw, throwThe, MonadExceptOf.throw]
  by_cases hlog : (isFilled disk f.log && !f.logWorks disk) = true
  · rw [if_pos hlog]
    exact .of_error rfl
  · rw [if_neg hlog]
    split
    · exact .of_error rfl
    · exact .of_ok ()

theorem DatabaseFile.checkWrite_isStores (f : DatabaseFile) (disk : Disk) (number : Nat) :
    FailsBy Failure.IsStores (f.checkWrite disk number) := by
  unfold checkWrite
  simp only [bind, Except.bind, pure, Except.pure, throw, throwThe, MonadExceptOf.throw]
  cases isDirectory disk f.journal with
  | true => exact .of_error rfl
  | false =>
    cases f.isKept disk number with
    | true => exact .of_ok ()
    | false => exact .of_error rfl

namespace Database

variable (d : Database) (disk : Disk)

/-- A table that is missing is a fault of the store. -/
theorem rows_isStores : FailsBy Failure.IsStores (d.rows disk) := by
  unfold rows
  cases disk.table? d.number with
  | some rows =>
    cases d.file with
    | none => exact .of_ok rows
    | some f => exact (f.checkRead_isStores disk).bind fun _ => .of_ok rows
  | none =>
    cases d.file with
    | none => exact .of_error rfl
    | some f => exact (f.checkRead_isStores disk).bind fun _ => .of_error rfl

/-- A table that cannot be read is a fault of the store. -/
theorem read_isStores : FailsBy Failure.IsStores (d.read disk).1 := by
  have hrows := d.rows_isStores disk
  unfold read
  split
  · exact .of_ok _
  · exact hrows

theorem checkWrite_isStores : FailsBy Failure.IsStores (d.checkWrite disk) := by
  unfold checkWrite
  refine ((d.rows_isStores disk).map _).bind fun _ => ?_
  cases d.file with
  | none => exact .of_ok ()
  | some f => exact f.checkWrite_isStores disk d.number

theorem put_isStores (rows : List TableRow) : FailsBy Failure.IsStores (d.put disk rows).1 := by
  have hcheck := d.checkWrite_isStores disk
  unfold put
  cases hwrite : d.checkWrite disk with
  | error e => exact .of_error (hcheck e hwrite)
  | ok u => exact .of_ok ()

/-- A batch that a database cannot take in is a fault of the store. -/
theorem takeIn_isStores (ms : List Metric) (rows : List TableRow) :
    FailsBy Failure.IsStores (d.takeIn disk ms rows) := by
  have hvalue (key : Key) (row : TableRow) :
      FailsBy Failure.IsStores (TableRow.valueOf key row) := by
    unfold TableRow.valueOf
    split
    · exact .of_ok _
    · exact .of_error rfl
  induction ms generalizing rows with
  | nil => exact .of_ok _
  | cons m ms ih =>
    refine (RowForm.merge_isStores hvalue m rows).bind fun merged => ?_
    refine (d.checkWrite_isStores disk).bind fun _ => ?_
    exact (ih merged.2).bind fun _ => .of_ok _

/-- An update of a database whose rows are anything. -/
theorem add_isStores (ms : List Metric) : FailsBy Failure.IsStores (d.add disk ms).1 := by
  unfold add
  split
  · exact .of_ok _
  · rcases hread : d.read disk with ⟨found, disk'⟩
    have hfound := (d.read_isStores disk).bind (d.takeIn_isStores disk' ms)
    rw [hread] at hfound
    simp only
    cases htaken : found >>= d.takeIn disk' ms with
    | error e => exact .of_error (hfound e htaken)
    | ok x => exact (d.put_isStores disk' x.2).map _

end Database

/-! ## Stores -/

/-- What a handle refuses is a fault of the client. -/
theorem Heap.update_isClients (heap : Heap) (h : Handle) (u : Value) :
    FailsBy Failure.IsClients (heap.update h u).1 := by
  have hupdate := Metric.update_isClients (heap.get h) u
  unfold update
  split
  · exact .of_ok _
  · rename_i e he
    exact .of_error (hupdate e he)

namespace Memory

variable {heap : Heap} {m : Memory}

/-- Memory fails only by a handle that has no cell. -/
theorem addOne_isStores (heap : Heap) (m : Memory) (h : Handle) :
    FailsBy Failure.IsStores (m.addOne heap h).1 := by
  unfold addOne
  simp only
  split
  · rename_i cell _
    have hupdate := (Heap.update_isClients heap cell (heap.get h).value).isStores
    split
    · exact .of_ok _
    · rename_i e heap' he
      rw [he] at hupdate
      exact .of_error (hupdate e rfl)
  · have hadd := (Metric.addTo_isClients (heap.get h) none).isStores
    split
    · exact .of_ok _
    · rename_i e he
      exact .of_error (hadd e he)

/-- An update of any cells. -/
theorem add_isStores (heap : Heap) (m : Memory) (hs : List Handle) :
    FailsBy Failure.IsStores (m.add heap hs).1 := by
  induction hs generalizing heap m with
  | nil => exact .of_ok []
  | cons h hs ih =>
    have hone := addOne_isStores heap m h
    unfold add
    split
    · rename_i e heap' m' he
      rw [he] at hone
      exact .of_error (hone e rfl)
    · exact (ih _ _).map _

end Memory

/-- To hand out metrics adds no fault. -/
theorem Store.answer_isStores {result : Outcome (List Metric)}
    (h : FailsBy Failure.IsStores result) (host : Host) :
    FailsBy Failure.IsStores (Store.answer result host).1 := by
  cases result with
  | error e => exact .of_error (h e rfl)
  | ok ms => exact .of_ok _

/-- What fails in an update of a store is put down to the store. -/
theorem Store.add_isStores (s : Store) (host : Host) (hs : List Handle) :
    FailsBy Failure.IsStores (s.add host hs).1 := by
  cases s with
  | memory cells => exact Memory.add_isStores host.heap cells hs
  | disabled => exact .of_ok hs
  | file f => exact Store.answer_isStores (f.add_isStores host.disk (host.getAll hs)) _
  | database d => exact Store.answer_isStores (d.add_isStores host.disk (host.getAll hs)) _
  | broken => exact .of_error rfl

/-- What fails in memory or in the backup is a fault of the store. -/
theorem Backed.add_isStores (b : Backed) (host : Host) (hs : List Handle) :
    FailsBy Failure.IsStores (b.add host hs).1 := by
  have hmemory := Memory.add_isStores host.heap b.memory hs
  unfold add
  rcases hadd : b.memory.add host.heap hs with ⟨result, heap, memory⟩
  rw [hadd] at hmemory
  simp only
  split
  · exact (Store.add_isStores _ _ _).map _
  · exact hmemory

end MetricRelay
