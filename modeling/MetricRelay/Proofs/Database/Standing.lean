import MetricRelay.Proofs.Database.Files
import MetricRelay.Store.Database

/-!
# Databases that stand

A database that was opened in a file is in a directory, and if there is a log of its
changes, that has an index.  From then on, all that is changed beside its rows is that its
journal is deleted, and opening the file again gives the same database.

Main definitions:

- `DatabaseFile.Stands`: a database is in its file as it is after it was opened.

Main results:

- `Database.stands_of_openFile`: after it was opened a database stands.
- `DatabaseFile.Stands.afterRead_eq`: what reading it changes.
- `Database.openFile_of_stands`: what opening it again gives.
-/

namespace MetricRelay

namespace DatabaseFile

variable {f : DatabaseFile} {disk : Disk} {number : Nat}

/-- To delete a file leaves the current directory. -/
@[simp]
theorem current_delete (place : Place) (disk : Disk) :
    (delete place disk).current = disk.current := by
  unfold delete
  split <;> rfl

/-- A disk on which a log of changes has an index. -/
def withIndex (f : DatabaseFile) (disk : Disk) : Disk :=
  if isFilled disk f.log && f.system = .usual && (disk.entryAt f.logIndex).isNone then
    disk.put f.logIndex (.file [])
  else disk

/-- After a database was read its log has an index, and its journal may be gone. -/
theorem afterRead_eq (f : DatabaseFile) (disk : Disk) :
    f.afterRead disk = f.withIndex disk ∨ f.afterRead disk = f.withIndex (delete f.journal disk) := by
  unfold afterRead
  split
  · exact .inr rfl
  · exact .inl rfl

@[simp]
theorem current_withIndex (f : DatabaseFile) (disk : Disk) :
    (f.withIndex disk).current = disk.current := by
  unfold withIndex
  split <;> rfl

@[simp]
theorem current_afterRead (f : DatabaseFile) (disk : Disk) :
    (f.afterRead disk).current = disk.current := by
  rcases f.afterRead_eq disk with h | h <;> simp [h]

/-- The index of the log is all that is made for a log. -/
theorem entryAt_withIndex {p : Place} (hp : p ≠ f.logIndex) :
    (f.withIndex disk).entryAt p = disk.entryAt p := by
  have hne : f.logIndex ≠ [] := beside_ne_nil f "-shm"
  unfold withIndex
  split
  · rw [Disk.entryAt_put disk _ _ _ hne, if_neg hp]
  · rfl

/-- With a log that has content there is an index of it. -/
theorem entryAt_logIndex_withIndex (hfilled : isFilled disk f.log = true)
    (hsystem : f.system = .usual) : ((f.withIndex disk).entryAt f.logIndex).isSome = true := by
  have hne : f.logIndex ≠ [] := beside_ne_nil f "-shm"
  unfold withIndex
  cases hindex : disk.entryAt f.logIndex with
  | none =>
    simp [hfilled, hsystem, Disk.entryAt_put disk _ _ _ hne]
  | some e =>
    simp only [Option.isNone_some, Bool.and_false, Bool.false_eq_true, if_false]
    rw [hindex]
    rfl

/-- A database that is made leaves the current directory. -/
@[simp]
theorem current_make (f : DatabaseFile) (disk : Disk) :
    (f.make disk).2.current = disk.current := by
  unfold make afterWrite
  by_cases hfilled : isFilled (delete f.journal disk) f.log = true
  · simp only [if_pos hfilled]
    exact (current_delete _ _).trans (current_delete _ _)
  · simp only [if_neg hfilled]
    exact current_delete _ _

/-- No file beside a database holds the directory of the database. -/
theorem not_beside_dropLast (f : DatabaseFile) (ending : String) :
    ¬ f.beside ending <+: f.place.dropLast := by
  intro hbehind
  have hlength := hbehind.length_le
  simp only [beside, List.length_append, List.length_cons, List.length_nil] at hlength
  omega

/-- A database is not the directory that it is in. -/
theorem dropLast_ne (hne : f.place ≠ []) : f.place.dropLast ≠ f.place := by
  intro heq
  have hlength := congrArg List.length heq
  have hpos := List.length_pos_iff.2 hne
  rw [List.length_dropLast] at hlength
  omega

/-- A database in a file can be found again: it is in a directory, and a log that
it has already has its index. -/
structure Stands (f : DatabaseFile) (disk : Disk) (number : Nat) : Prop where
  ne_nil : f.place ≠ []
  entry : disk.entryAt f.place = some (.database number)
  directory : disk.entryAt f.place.dropLast = some .directory
  indexed : isFilled disk f.log = true → f.system = .usual →
    (disk.entryAt f.logIndex).isSome = true

/-- Whether a file stands depends on few places only. -/
theorem Stands.congr (h : f.Stands disk number) {disk' : Disk}
    (hkeep : ∀ p, ¬ f.journal <+: p → disk'.entryAt p = disk.entryAt p) :
    f.Stands disk' number where
  ne_nil := h.ne_nil
  entry := by
    rw [hkeep _ (ne_place f (by decide))]
    exact h.entry
  directory := by
    rw [hkeep _ (not_beside_dropLast f "-journal")]
    exact h.directory
  indexed := by
    unfold isFilled
    rw [log, logIndex, hkeep _ (not_beside_behind (by decide)),
      hkeep _ (not_beside_behind (by decide))]
    exact h.indexed

/-- A database stands without its journal. -/
theorem Stands.delete_journal (h : f.Stands disk number) :
    f.Stands (delete f.journal disk) number :=
  h.congr fun _ hp => entryAt_delete (beside_ne_nil f "-journal") hp

/-- Nothing is missing beside a file that stands. -/
theorem Stands.withIndex_eq (h : f.Stands disk number) : f.withIndex disk = disk := by
  unfold withIndex
  split
  · rename_i hmissing
    simp only [Bool.and_eq_true, decide_eq_true_eq] at hmissing
    rcases hmissing with ⟨⟨hfilled, hsystem⟩, hnone⟩
    rw [← Option.not_isSome, h.indexed hfilled hsystem] at hnone
    cases hnone
  · rfl

/-- Of what is beside it, only the journal may be gone after it was read. -/
theorem Stands.afterRead_eq (h : f.Stands disk number) :
    f.afterRead disk = disk ∨ f.afterRead disk = delete f.journal disk := by
  rcases f.afterRead_eq disk with hread | hread
  · exact .inl (hread.trans h.withIndex_eq)
  · exact .inr (hread.trans h.delete_journal.withIndex_eq)

/-- A database that was read in its directory stands. -/
theorem stands_afterRead (hne : f.place ≠ [])
    (hentry : disk.entryAt f.place = some (.database number))
    (hdirectory : disk.entryAt f.place.dropLast = some .directory) :
    f.Stands (f.afterRead disk) number := by
  have hindexed {disk' : Disk} (hentry : disk'.entryAt f.place = some (.database number))
      (hdirectory : disk'.entryAt f.place.dropLast = some .directory) :
      f.Stands (f.withIndex disk') number := by
    have hother {p : Place} (hp : ¬ f.logIndex <+: p) :
        (f.withIndex disk').entryAt p = disk'.entryAt p := by
      refine entryAt_withIndex ?_
      rintro rfl
      exact hp (List.prefix_refl _)
    refine ⟨hne, ?_, ?_, fun hfilled hsystem => ?_⟩
    · rw [hother (ne_place f (by decide))]
      exact hentry
    · rw [hother (not_beside_dropLast f "-shm")]
      exact hdirectory
    · have hlog : (f.withIndex disk').entryAt f.log = disk'.entryAt f.log :=
        hother (not_beside_behind (by decide))
      unfold isFilled at hfilled
      rw [hlog] at hfilled
      exact entryAt_logIndex_withIndex hfilled hsystem
  have hkeep {p : Place} (hp : ¬ f.journal <+: p) :
      (delete f.journal disk).entryAt p = disk.entryAt p :=
    entryAt_delete (beside_ne_nil f "-journal") hp
  rcases f.afterRead_eq disk with hread | hread
  · rw [hread]
    exact hindexed hentry hdirectory
  · rw [hread]
    refine hindexed ?_ ?_
    · rw [hkeep (ne_place f (by decide))]
      exact hentry
    · rw [hkeep (not_beside_dropLast f "-journal")]
      exact hdirectory

/-- A deleted file does not fill its place. -/
theorem isFilled_delete {place : Place} (hplace : place ≠ []) (h : isDirectory disk place = false) :
    isFilled (delete place disk) place = false := by
  unfold delete
  rw [h, if_neg Bool.false_ne_true]
  unfold isFilled
  rw [Disk.entryAt_clear disk hplace, if_pos (List.prefix_refl place)]

/-- Where a database can be made its log is no directory. -/
theorem isDirectory_log_of_checkNew (h : f.checkNew disk = .ok ()) :
    isDirectory disk f.log = false := by
  cases hlog : isDirectory disk f.log with
  | false => rfl
  | true =>
    unfold checkNew at h
    rw [hlog, Bool.true_or, if_pos rfl] at h
    cases hlock : f.checkLock disk <;> rw [hlock] at h <;> cases h

/-- A database is made where its directory still is, and no log is left. -/
theorem exists_make_eq (hcheck : f.checkNew disk = .ok ())
    (hdirectory : disk.entryAt f.place.dropLast = some .directory) :
    ∃ disk', f.make disk = (disk'.tables.length,
        disk'.addTable.2.put f.place (.database disk'.tables.length)) ∧
      isFilled disk' f.log = false ∧ disk'.entryAt f.place.dropLast = some .directory := by
  have hjournal : f.journal ≠ [] := beside_ne_nil f "-journal"
  have hlog : f.log ≠ [] := beside_ne_nil f "-wal"
  have hkeep : (delete f.journal disk).entryAt f.log = disk.entryAt f.log :=
    entryAt_delete hjournal (not_beside_behind (by decide))
  have hdirectory' : (delete f.journal disk).entryAt f.place.dropLast = some .directory := by
    rw [entryAt_delete hjournal (not_beside_dropLast f "-journal")]
    exact hdirectory
  by_cases hfilled : isFilled (delete f.journal disk) f.log = true
  · refine ⟨delete f.log (delete f.journal disk), ?_, isFilled_delete hlog ?_, ?_⟩
    · unfold make afterWrite
      simp only [if_pos hfilled]
      rfl
    · have hfree := isDirectory_log_of_checkNew hcheck
      unfold isDirectory at hfree ⊢
      rw [hkeep]
      exact hfree
    · rw [entryAt_delete hlog (not_beside_dropLast f "-wal")]
      exact hdirectory'
  · refine ⟨delete f.journal disk, ?_, Bool.eq_false_iff.2 hfilled, hdirectory'⟩
    unfold make afterWrite
    simp only [if_neg hfilled]
    rfl

/-- A database that was made in a directory stands. -/
theorem stands_make (hne : f.place ≠ []) (hcheck : f.checkNew disk = .ok ())
    (hdirectory : disk.entryAt f.place.dropLast = some .directory) :
    f.Stands (f.make disk).2 (f.make disk).1 := by
  rcases exists_make_eq hcheck hdirectory with ⟨disk', hmake, hlog, hdirectory'⟩
  have hother {p : Place} (hp : p ≠ f.place) :
      (disk'.addTable.2.put f.place (.database disk'.tables.length)).entryAt p =
        disk'.entryAt p := by
    rw [Disk.entryAt_put _ _ _ _ hne, if_neg hp]
    rfl
  rw [hmake]
  refine ⟨hne, ?_, ?_, fun hfilled _ => ?_⟩
  · rw [Disk.entryAt_put _ _ _ _ hne, if_pos rfl]
  · rw [hother (dropLast_ne hne)]
    exact hdirectory'
  · have hplace : f.log ≠ f.place := fun heq =>
      ne_place f (by decide) ((List.prefix_refl f.log).trans (heq ▸ List.prefix_refl f.log))
    unfold isFilled at hfilled hlog
    rw [hother hplace, hlog] at hfilled
    cases hfilled

end DatabaseFile

/-! ## Databases -/

namespace Database

variable {d : Database} {f : DatabaseFile} {disk disk' : Disk} {name path : String}
  {create : Bool}

/-- A database that was made in its directory stands there. -/
theorem stands_of_make (hne : f.place ≠ [])
    (hdirectory : disk.entryAt f.place.dropLast = some .directory)
    (h : (match f.checkNew disk with
      | .error e => (.error e, disk)
      | .ok () => (.ok ⟨(f.make disk).1, some f⟩, (f.make disk).2)) =
        ((.ok d, disk') : Outcome Database × Disk)) :
    d.file = some f ∧ f.Stands disk' d.number ∧ disk'.current = disk.current := by
  cases hcheck : f.checkNew disk with
  | error e =>
    rw [hcheck] at h
    cases h
  | ok u =>
    rw [hcheck] at h
    cases h
    exact ⟨rfl, DatabaseFile.stands_make hne hcheck hdirectory, f.current_make disk⟩

/-- A database whose file was opened stands there. -/
theorem stands_of_openFile (h : openFile disk f create = (.ok d, disk')) :
    d.file = some f ∧ f.Stands disk' d.number ∧ disk'.current = disk.current := by
  unfold openFile at h
  simp only at h
  split at h
  · cases h
  · rename_i hplace
    simp only [Bool.or_eq_true, decide_eq_true_eq, not_or, ne_eq, Decidable.not_not] at hplace
    rcases hplace with ⟨hne, hdirectory⟩
    split at h
    · split at h
      · have hnew : (disk.put f.place (.file [])).entryAt f.place.dropLast = some .directory := by
          rw [Disk.entryAt_put disk _ _ _ hne, if_neg (DatabaseFile.dropLast_ne hne)]
          exact hdirectory
        have hmade := stands_of_make hne hnew h
        exact hmade
      · cases h
    · cases h
    · split at h
      · exact stands_of_make hne hdirectory h
      · cases h
    · rename_i number hentry
      cases hcheck : f.checkRead disk with
      | error e =>
        rw [hcheck] at h
        cases h
      | ok u =>
        rw [hcheck] at h
        cases h
        exact ⟨rfl, DatabaseFile.stands_afterRead hne hentry hdirectory,
          f.current_afterRead disk⟩

/-- A database that stands in its file is opened as it is. -/
theorem openFile_of_stands {number : Nat} (h : f.Stands disk number) (create : Bool) :
    openFile disk f create =
      match f.checkRead disk with
      | .error e => (.error e, disk)
      | .ok () => (.ok ⟨number, some f⟩, f.afterRead disk) := by
  have hplace : (decide (f.place = []) ||
      decide (disk.entryAt f.place.dropLast ≠ some .directory)) = false := by
    simp [h.ne_nil, h.directory]
  unfold openFile
  simp only [hplace, h.entry]
  rfl

end Database

end MetricRelay
