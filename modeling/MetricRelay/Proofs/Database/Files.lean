import MetricRelay.Database.Companion
import MetricRelay.Proofs.Disk.Places

/-!
# Files of a database

Reading and changing a database touch the files beside its own, and nothing that
they leave there keeps the database from being read or changed again.

Main definitions:

- `DatabaseFile.Works`: a database can be read and changed.

Main results:

- `DatabaseFile.Works.afterRead` and `DatabaseFile.Works.afterWrite`.
-/

namespace MetricRelay

namespace DatabaseFile

variable {f : DatabaseFile} {disk disk' : Disk} {number : Nat}

/-! ## Places -/

theorem beside_ne_nil (f : DatabaseFile) (ending : String) : f.beside ending ≠ [] :=
  List.append_ne_nil_of_right_ne_nil _ (List.cons_ne_nil _ [])

/-- Files beside a database differ where their endings do. -/
theorem beside_injective {ending ending' : String} (h : f.beside ending = f.beside ending') :
    ending = ending' := by
  have hname := (List.cons.inj (List.append_cancel_left h)).1
  have htoList := congrArg String.toList hname
  rw [String.toList_append, String.toList_append] at htoList
  exact String.toList_inj.1 (List.append_cancel_left htoList)

/-- No file beside a database is in another one. -/
theorem not_beside_behind {ending ending' : String} (h : ending ≠ ending') :
    ¬ f.beside ending <+: f.beside ending' := by
  intro hbehind
  have hlength : (f.beside ending).length = (f.beside ending').length := by
    simp [beside]
  exact h (beside_injective (hbehind.eq_of_length hlength))

/-- No file beside a database is on the way to it. -/
theorem ne_place (f : DatabaseFile) {ending : String} (h : ending ≠ "") :
    ¬ f.beside ending <+: f.place := by
  intro hbehind
  cases hplace : f.place.getLast? with
  | none =>
    rw [List.getLast?_eq_none_iff] at hplace
    rw [hplace] at hbehind
    exact beside_ne_nil f ending (List.prefix_nil.1 hbehind)
  | some last =>
    rcases List.getLast?_eq_some_iff.1 hplace with ⟨dir, hsplit⟩
    have hbeside : f.beside ending = dir ++ [last ++ ending] := by
      rw [beside, hplace, hsplit, List.dropLast_concat]
      rfl
    rw [hbeside, hsplit] at hbehind
    have heq := hbehind.eq_of_length (by simp)
    have hname := (List.cons.inj (List.append_cancel_left heq)).1
    have htoList := congrArg String.toList hname
    rw [String.toList_append] at htoList
    exact h (String.toList_inj.1 (List.append_right_eq_self.1 htoList))

/-! ## Checks -/

/-- What keeps a database from being read: a lock, a log that cannot be used, and a journal
that is a directory. -/
theorem checkRead_eq_ok_iff :
    f.checkRead disk = .ok () ↔
      ¬ (f.system = .lockFile ∧ (disk.entryAt f.lock).isSome = true) ∧
      ¬ (isFilled disk f.log = true ∧ f.logWorks disk = false) ∧
      ¬ (isDirectory disk f.journal = true ∧ f.system ≠ .lockFile) := by
  unfold checkRead checkLock
  simp only [bind, Except.bind, pure, Except.pure, throw, throwThe, MonadExceptOf.throw,
    Bool.and_eq_true, decide_eq_true_eq, Bool.not_eq_true']
  by_cases hlock : f.system = .lockFile ∧ (disk.entryAt f.lock).isSome = true
  · simp [hlock]
  · rw [if_neg hlock]
    simp only
    by_cases hlog : isFilled disk f.log = true ∧ f.logWorks disk = false
    · simp [hlog]
    · rw [if_neg hlog]
      by_cases hjournal : isDirectory disk f.journal = true ∧ f.system ≠ .lockFile
      · simp [hjournal]
      · simp only [hlock, hlog, hjournal]
        simp

/-- What keeps it from being written: such a journal, and rows that are not kept. -/
theorem checkWrite_eq_ok_iff :
    f.checkWrite disk number = .ok () ↔
      isDirectory disk f.journal = false ∧ f.isKept disk number = true := by
  unfold checkWrite
  simp only [bind, Except.bind, pure, Except.pure, throw, throwThe, MonadExceptOf.throw]
  cases isDirectory disk f.journal with
  | true => simp
  | false => cases f.isKept disk number <;> simp

/-- A database can be read and changed. -/
structure Works (f : DatabaseFile) (disk : Disk) (number : Nat) : Prop where
  read : f.checkRead disk = .ok ()
  write : f.checkWrite disk number = .ok ()

/-- A log can still be used if it and the place of its index are as they were. -/
theorem logWorks_of_logWorks (hlog : disk'.entryAt f.log = disk.entryAt f.log)
    (hindex : isDirectory disk f.logIndex = false → isDirectory disk' f.logIndex = false)
    (h : f.logWorks disk = true) : f.logWorks disk' = true := by
  have hlogDirectory : isDirectory disk' f.log = isDirectory disk f.log := by
    unfold isDirectory
    rw [hlog]
  unfold logWorks at h ⊢
  cases hsystem : f.system with
  | usual =>
    rw [hsystem] at h
    simp only [Bool.and_eq_true, Bool.not_eq_true'] at h ⊢
    rw [hlogDirectory]
    exact ⟨h.1, hindex h.2⟩
  | exclusive =>
    rw [hsystem] at h
    simp only [hlogDirectory]
    exact h
  | lockFile =>
    rw [hsystem] at h
    cases h
  | lockless =>
    rw [hsystem] at h
    cases h
  | inMemory =>
    rw [hsystem] at h
    cases h

/-- Whether a database can be read depends on the disk by few places only. -/
theorem checkRead_congr (h : f.checkRead disk = .ok ())
    (hlock : disk'.entryAt f.lock = disk.entryAt f.lock)
    (hlog : disk'.entryAt f.log = disk.entryAt f.log)
    (hindex : isDirectory disk f.logIndex = false → isDirectory disk' f.logIndex = false)
    (hjournal : isDirectory disk f.journal = false → isDirectory disk' f.journal = false) :
    f.checkRead disk' = .ok () := by
  rcases checkRead_eq_ok_iff.1 h with ⟨hlockOk, hlogOk, hjournalOk⟩
  refine checkRead_eq_ok_iff.2 ⟨?_, ?_, ?_⟩
  · rw [hlock]
    exact hlockOk
  · rintro ⟨hfilled, hworks⟩
    have hfilled' : isFilled disk f.log = true := by
      unfold isFilled at hfilled ⊢
      rw [hlog] at hfilled
      exact hfilled
    refine hlogOk ⟨hfilled', Bool.eq_false_iff.2 fun hworks' => ?_⟩
    rw [logWorks_of_logWorks hlog hindex hworks'] at hworks
    cases hworks
  · rintro ⟨hdirectory, hsystem⟩
    refine hjournalOk ⟨?_, hsystem⟩
    cases hbefore : isDirectory disk f.journal with
    | true => rfl
    | false =>
      rw [hjournal hbefore] at hdirectory
      cases hdirectory

/-- Whether a database works depends on the disk by few places only. -/
theorem Works.congr (h : f.Works disk number)
    (hplace : disk'.entryAt f.place = disk.entryAt f.place)
    (hlock : disk'.entryAt f.lock = disk.entryAt f.lock)
    (hlog : disk'.entryAt f.log = disk.entryAt f.log)
    (hindex : isDirectory disk f.logIndex = false → isDirectory disk' f.logIndex = false)
    (hjournal : isDirectory disk f.journal = false → isDirectory disk' f.journal = false) :
    f.Works disk' number := by
  rcases checkWrite_eq_ok_iff.1 h.write with ⟨hfree, hkept⟩
  refine ⟨checkRead_congr h.read hlock hlog hindex hjournal,
    checkWrite_eq_ok_iff.2 ⟨hjournal hfree, ?_⟩⟩
  unfold isKept at hkept ⊢
  rw [hplace]
  exact hkept

/-! ## Changes -/

/-- What is deleted is gone with all that is below it, and nothing else is. -/
theorem entryAt_delete {place p : Place} (hplace : place ≠ []) (h : ¬ place <+: p) :
    (delete place disk).entryAt p = disk.entryAt p := by
  unfold delete
  split
  · rfl
  · rw [Disk.entryAt_clear disk hplace, if_neg h]

/-- Where there was no directory there is none after a deletion. -/
theorem isDirectory_delete {place : Place} (hplace : place ≠ [])
    (h : isDirectory disk place = false) : isDirectory (delete place disk) place = false := by
  unfold delete
  rw [h, if_neg Bool.false_ne_true]
  unfold isDirectory
  rw [Disk.entryAt_clear disk hplace, if_pos (List.prefix_refl place)]
  rfl

/-- To delete a file leaves all tables there. -/
@[simp]
theorem tables_delete (place : Place) (disk : Disk) : (delete place disk).tables = disk.tables := by
  unfold delete
  split <;> rfl

/-- A deleted journal leaves the other files beside a database. -/
theorem entryAt_delete_journal (f : DatabaseFile) (disk : Disk) {ending : String}
    (h : "-journal" ≠ ending) :
    (delete f.journal disk).entryAt (f.beside ending) = disk.entryAt (f.beside ending) :=
  entryAt_delete (beside_ne_nil f "-journal") (not_beside_behind h)

/-- To delete the journal makes no directory beside a database. -/
theorem isDirectory_delete_journal (f : DatabaseFile) (disk : Disk) {ending : String}
    (h : isDirectory disk (f.beside ending) = false) :
    isDirectory (delete f.journal disk) (f.beside ending) = false := by
  by_cases hending : "-journal" = ending
  · subst hending
    exact isDirectory_delete (beside_ne_nil f "-journal") h
  · unfold isDirectory at h ⊢
    rw [entryAt_delete_journal f disk hending]
    exact h

/-- An index for the log leaves all else. -/
theorem entryAt_put_logIndex (f : DatabaseFile) (disk : Disk) {p : Place} (h : ¬ f.logIndex <+: p) :
    (disk.put f.logIndex (.file [])).entryAt p = disk.entryAt p := by
  have hne : f.logIndex ≠ [] := beside_ne_nil f "-shm"
  rw [Disk.entryAt_put disk _ _ _ hne, if_neg]
  rintro rfl
  exact h (List.prefix_refl _)

/-- To make the index of the log makes no directory and removes none. -/
theorem isDirectory_put_logIndex (f : DatabaseFile) (disk : Disk) {ending : String}
    (h : isDirectory disk (f.beside ending) = false) :
    isDirectory (disk.put f.logIndex (.file [])) (f.beside ending) = false := by
  unfold isDirectory at h ⊢
  by_cases hending : "-shm" = ending
  · subst hending
    rw [logIndex, Disk.entryAt_put disk _ _ _ (beside_ne_nil f "-shm"), if_pos rfl]
    rfl
  · rw [entryAt_put_logIndex f disk (not_beside_behind hending)]
    exact h

/-- A database can be read after its journal is deleted. -/
theorem checkRead_delete_journal (h : f.checkRead disk = .ok ()) :
    f.checkRead (delete f.journal disk) = .ok () :=
  checkRead_congr h (entryAt_delete_journal f disk (by decide))
    (entryAt_delete_journal f disk (by decide)) (isDirectory_delete_journal f disk)
    (isDirectory_delete_journal f disk)

/-- A database works after its journal is deleted. -/
theorem Works.delete_journal (h : f.Works disk number) :
    f.Works (delete f.journal disk) number :=
  h.congr (entryAt_delete (beside_ne_nil f "-journal") (ne_place f (by decide)))
    (entryAt_delete_journal f disk (by decide)) (entryAt_delete_journal f disk (by decide))
    (isDirectory_delete_journal f disk) (isDirectory_delete_journal f disk)

/-- A database can be read after an index is made for its log. -/
theorem checkRead_put_logIndex (h : f.checkRead disk = .ok ()) :
    f.checkRead (disk.put f.logIndex (.file [])) = .ok () :=
  checkRead_congr h (entryAt_put_logIndex f disk (not_beside_behind (by decide)))
    (entryAt_put_logIndex f disk (not_beside_behind (by decide))) (isDirectory_put_logIndex f disk)
    (isDirectory_put_logIndex f disk)

/-- A database works after an index is made for its log. -/
theorem Works.put_logIndex (h : f.Works disk number) :
    f.Works (disk.put f.logIndex (.file [])) number :=
  h.congr (entryAt_put_logIndex f disk (ne_place f (by decide)))
    (entryAt_put_logIndex f disk (not_beside_behind (by decide)))
    (entryAt_put_logIndex f disk (not_beside_behind (by decide))) (isDirectory_put_logIndex f disk)
    (isDirectory_put_logIndex f disk)

/-- What stays when a journal is deleted and when an index is made stays when a database is read. -/
theorem afterRead_induction {P : Disk → Prop}
    (hdelete : ∀ {disk}, P disk → P (delete f.journal disk))
    (hput : ∀ {disk : Disk}, P disk → P (disk.put f.logIndex (.file []))) (h : P disk) :
    P (f.afterRead disk) := by
  unfold DatabaseFile.afterRead
  by_cases hmarked : (isMarked disk f.journal && decide (f.system ≠ .lockFile)) = true
  · rw [if_pos hmarked]
    simp only
    split
    · exact hput (hdelete h)
    · exact hdelete h
  · rw [if_neg hmarked]
    simp only
    split
    · exact hput h
    · exact h

/-- A database can be read again after it was read. -/
theorem checkRead_afterRead (h : f.checkRead disk = .ok ()) :
    f.checkRead (f.afterRead disk) = .ok () :=
  afterRead_induction (P := fun disk => f.checkRead disk = .ok ()) checkRead_delete_journal
    checkRead_put_logIndex h

/-- A database works after it was read. -/
theorem Works.afterRead (h : f.Works disk number) : f.Works (f.afterRead disk) number :=
  afterRead_induction (P := fun disk => f.Works disk number) Works.delete_journal
    Works.put_logIndex h

/-- A database works after it was changed. -/
theorem Works.afterWrite (h : f.Works disk number) : f.Works (f.afterWrite disk) number :=
  h.delete_journal

/-- To read leaves all tables as they are. -/
@[simp]
theorem tables_afterRead (f : DatabaseFile) (disk : Disk) :
    (f.afterRead disk).tables = disk.tables :=
  afterRead_induction (P := fun later => later.tables = disk.tables)
    (fun h => (tables_delete f.journal _).trans h) (fun h => h) rfl

/-- What is left beside a database after a write is in no table. -/
@[simp]
theorem tables_afterWrite (f : DatabaseFile) (disk : Disk) :
    (f.afterWrite disk).tables = disk.tables :=
  tables_delete _ _

/-- A database that works still does with other rows. -/
theorem Works.setTable (h : f.Works disk number) (rows : List TableRow) :
    f.Works (disk.setTable number rows) number :=
  h.congr rfl rfl rfl id id

end DatabaseFile

end MetricRelay
