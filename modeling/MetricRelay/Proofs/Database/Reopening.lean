import MetricRelay.Proofs.Database.Standing
import MetricRelay.Proofs.Store.Database

/-!
# Opening a database again

A name leads to the same file for as long as paths start in the same directory,
and a file keeps its database for as long as nobody else touches it.  All that a
store changes beside the rows is to delete the journal, and what is deleted is in
nobody's way.  So whoever opens the name again has the same database.

Main definitions:

- `DatabaseName.IsPath`: a name that stands for the file under a path.
- `Database.IsNamed`: an open database that is found again by a name.

Main results:

- `Database.isNamed_of_connect`: a database in a file is found again by its name.
- `Database.IsNamed.reopen` and `Database.IsNamed.exists_reopen`: it is the same
  database, and it can be opened again.
-/

namespace MetricRelay

/-! ## Ways -/

namespace Location

/-- Where a path leads by its names alone. -/
def along (current : Place) (path : String) : Place :=
  (Path.parts path).foldl Path.follow (if Path.isAbsolute path then [] else current)

/-- A place can be reached if it is not too long and nothing but absence is in the way. -/
theorem onWay_eq_ok_iff {disk : Disk} {place place' : Place} :
    onWay disk place = .ok place' ↔
      place' = place ∧ (place.map fun name => 1 + Path.size name).foldl (· + ·) 0 ≤ greatestPath ∧
        ∀ e, place.foldlM disk.step [] = .error e → e = .missing := by
  unfold onWay
  simp only
  by_cases hlong : greatestPath < (place.map fun name => 1 + Path.size name).foldl (· + ·) 0
  · rw [if_pos hlong]
    constructor
    · intro h
      cases h
    · rintro ⟨-, hle, -⟩
      exact absurd hlong (Nat.not_lt.2 hle)
  · rw [if_neg hlong]
    cases hwalk : place.foldlM disk.step [] with
    | ok q => simpa [Nat.not_lt.1 hlong] using eq_comm
    | error e =>
      cases e <;> simp [Nat.not_lt.1 hlong, eq_comm]

/-- The place of a path is where it leads from the current directory. -/
theorem placeOf_eq_ok {disk : Disk} {path : String} {place : Place}
    (h : placeOf disk path = .ok place) : place = along disk.current path := by
  unfold placeOf at h
  unfold along
  generalize (if Path.isAbsolute path then [] else disk.current) = start at h ⊢
  generalize Path.parts path = parts at h ⊢
  induction parts generalizing start with
  | nil =>
    rw [List.foldlM_nil] at h
    exact (Except.ok.inj h).symm
  | cons part parts ih =>
    rw [List.foldlM_cons] at h
    cases hone : onWay disk (Path.follow start part) with
    | error e => simp [hone, bind, Except.bind] at h
    | ok next =>
      simp only [hone, bind, Except.bind] at h
      rw [List.foldl_cons, ← (onWay_eq_ok_iff.1 hone).1]
      exact ih next h

/-- A walk that nothing is in the way of also finds nothing in its way where some
place is cleared: there it may only find that something is missing. -/
theorem foldlM_step_clear {disk : Disk} {cleared : Place} (hcleared : cleared ≠ [])
    {parts : List String} {q : Place} (hq : ¬ cleared <+: q)
    (hwalk : ∀ e, parts.foldlM disk.step q = .error e → e = .missing) :
    ∀ e, parts.foldlM (disk.clear cleared).step q = .error e → e = .missing := by
  induction parts generalizing q with
  | nil =>
    intro e he
    cases he
  | cons part parts ih =>
    have hstep : (disk.clear cleared).step q part = disk.step q part := by
      unfold Disk.step
      rw [Disk.entryAt_clear disk hcleared, if_neg hq]
    rw [List.foldlM_cons] at hwalk ⊢
    rw [hstep]
    cases hnext : disk.step q part with
    | error e =>
      rw [hnext] at hwalk
      exact hwalk
    | ok next =>
      rw [hnext] at hwalk
      -- Where a walk comes into what is cleared, it ends there or finds nothing.
      by_cases hbehind : cleared <+: next
      · cases parts with
        | nil =>
          intro e he
          cases he
        | cons part' parts =>
          have hmissing : (disk.clear cleared).step next part' = .error .missing := by
            unfold Disk.step
            rw [Disk.entryAt_clear disk hcleared, if_pos hbehind]
          intro e he
          simp only [bind, Except.bind, List.foldlM_cons, hmissing] at he
          exact (Except.error.inj he).symm
      · exact ih hbehind hwalk

/-- A way stays free when some place is cleared. -/
theorem placeOf_clear {disk : Disk} {path : String} {place cleared : Place}
    (hcleared : cleared ≠ []) (h : placeOf disk path = .ok place) :
    placeOf (disk.clear cleared) path = .ok place := by
  unfold placeOf at h ⊢
  rw [Disk.current_clear]
  generalize (if Path.isAbsolute path then [] else disk.current) = start at h ⊢
  generalize Path.parts path = parts at h ⊢
  induction parts generalizing start with
  | nil => exact h
  | cons part parts ih =>
    rw [List.foldlM_cons] at h ⊢
    cases hone : onWay disk (Path.follow start part) with
    | error e => simp [hone, bind, Except.bind] at h
    | ok next =>
      have hstart : ¬ cleared <+: [] := fun hprefix => hcleared (List.prefix_nil.1 hprefix)
      rcases onWay_eq_ok_iff.1 hone with ⟨hnext, hsize, hwalk⟩
      have hone' : onWay (disk.clear cleared) (Path.follow start part) = .ok next :=
        onWay_eq_ok_iff.2 ⟨hnext, hsize, foldlM_step_clear hcleared hstart hwalk⟩
      simp only [hone, bind, Except.bind] at h
      simp only [hone', bind, Except.bind]
      exact ih next h

end Location

/-! ## Names -/

/-- What is opened as a file is opened by a path, whatever is on the disk. -/
theorem Opening.exists_path {o : Opening} {disk : Disk} {system : System} {place : Place}
    {create : Bool} (h : o.location disk = .ok (.file system place create)) :
    ∃ path, ∀ disk', o.location disk' =
      (Location.placeOf disk' path).map fun place => .file system place create := by
  unfold Opening.location at h ⊢
  by_cases hread : o.access = .read
  · rw [if_pos hread] at h
    cases h
  by_cases hname : o.file = []
  · rw [if_neg hread, if_pos hname] at h
    cases h
  by_cases hmemory : (o.memory || o.file = Utf8.encode ":memory:") = true
  · simp only [if_neg hread, if_neg hname, if_pos hmemory] at h
    split at h <;> cases h
  by_cases himmutable : o.immutable = true
  · simp only [if_neg hread, if_neg hname, if_neg hmemory, if_pos himmutable] at h
    cases h
  simp only [if_neg hread, if_neg hname, if_neg hmemory, if_neg himmutable] at h ⊢
  split at h
  · split at h
    · cases h
    · split at h
      · cases h
      · rw [Except.ok.injEq] at h
        split at h <;> cases h
  · cases hdecode : Utf8.decode? o.file with
    | none =>
      rw [hdecode] at h
      cases h
    | some path =>
      simp only [hdecode] at h ⊢
      cases hplace : Location.placeOf disk path with
      | error e =>
        rw [hplace] at h
        cases h
      | ok place' =>
        rw [hplace] at h
        cases h
        exact ⟨path, fun disk' => rfl⟩

namespace DatabaseName

/-- Whether a name is that of a database in memory that nobody else can name. -/
def isOwnMemory (name : String) : Bool :=
  (Text.cutAt '?' (dropAll "sqlite:".toList (dropAll "sqlite://".toList name.toList))).1 =
    ":memory:".toList

/-- A name that is not that of a database in memory says the same each time. -/
theorem parse_eq {name : String} (h : isOwnMemory name = false) (unused unused' : Nat) :
    parse unused name = parse unused' name := by
  rw [isOwnMemory, decide_eq_false_iff_not] at h
  unfold parse
  simp only [if_neg h]

/-- A name stands for the file under a path, whatever is on the disk. -/
def IsPath (name path : String) (system : System) (create : Bool) : Prop :=
  ∃ o : Opening, (∀ unused, parse unused name >>= opening = .ok o) ∧
    ∀ disk, o.location disk =
      (Location.placeOf disk path).map fun place => .file system place create

end DatabaseName

/-! ## Connections -/

namespace Database

variable {d : Database} {f : DatabaseFile} {disk disk' : Disk} {name path : String}
  {create : Bool}

/-- The connections after the first have to find the database too. -/
theorem checked_eq_ok_iff {d' : Database} {single : Bool} {again : Outcome Location} :
    (do if !single then discard again
        return d' : Outcome Database) = .ok d ↔
      d' = d ∧ (single = false → ∃ location, again = .ok location) := by
  cases single with
  | true => simp [pure, Except.pure]
  | false =>
    cases again <;> simp [discard, Functor.discard, Functor.mapConst, Except.map, bind,
      Except.bind, pure, Except.pure]

/-- The database of a name that stands for a file is opened by its path. -/
theorem connect_eq_ok_iff {system : System} (h : DatabaseName.IsPath name path system create) :
    connect disk name = (.ok d, disk') ↔
      ∃ place, Location.placeOf disk path = .ok place ∧
        openFile disk ⟨system, place⟩ create = (.ok d, disk') ∧
        (DatabaseName.isSingle name = false → ∃ place', Location.placeOf disk' path = .ok place') := by
  rcases h with ⟨o, hopening, hlocation⟩
  have hfound (disk : Disk) : (∃ location, o.location disk = .ok location) ↔
      ∃ place, Location.placeOf disk path = .ok place := by
    rw [hlocation]
    cases Location.placeOf disk path <;> simp [Except.map]
  unfold connect
  rw [hopening]
  simp only
  rw [hlocation disk]
  cases hplace : Location.placeOf disk path with
  | error e => simp [Except.map]
  | ok place =>
    simp only [Except.map, openAt]
    constructor
    · intro h
      rw [Prod.mk.injEq] at h
      rcases h with ⟨hresult, hdisk⟩
      rcases hopen : openFile disk ⟨system, place⟩ create with ⟨result, opened⟩
      rw [hopen] at hresult hdisk
      cases result with
      | error e => cases hresult
      | ok d' =>
        rcases checked_eq_ok_iff.1 hresult with ⟨rfl, hagain⟩
        obtain rfl : opened = disk' := hdisk
        exact ⟨place, rfl, hopen, fun hsingle => (hfound opened).1 (hagain hsingle)⟩
    · rintro ⟨place', hplace', hopen, hagain⟩
      cases hplace'
      rw [hopen]
      exact Prod.ext (checked_eq_ok_iff.2 ⟨rfl, fun hsingle => (hfound disk').2 (hagain hsingle)⟩)
        rfl

/-- A database in a file is at the location of a file. -/
theorem exists_of_openAt {single : Bool} {location : Location}
    (h : openAt disk single location = (.ok d, disk')) (hfile : d.file = some f) :
    ∃ create, location = .file f.system f.place create := by
  unfold openAt at h
  cases location with
  | alone =>
    cases single with
    | true =>
      cases h
      cases hfile
    | false => cases h
  | shared name =>
    simp only at h
    split at h
    · cases h
      cases hfile
    · cases h
      cases hfile
  | file system place create =>
    rcases stands_of_openFile h with ⟨hfile', -⟩
    rw [hfile] at hfile'
    cases hfile'
    exact ⟨create, rfl⟩

/-- Whoever has opened a database in a file has opened it by a path. -/
theorem exists_isPath_of_connect (hname : DatabaseName.isOwnMemory name = false)
    (h : connect disk name = (.ok d, disk')) (hfile : d.file = some f) :
    ∃ path create, DatabaseName.IsPath name path f.system create := by
  unfold connect at h
  cases hopening : DatabaseName.parse disk.tables.length name >>= DatabaseName.opening with
  | error e =>
    rw [hopening] at h
    cases h
  | ok o =>
    rw [hopening] at h
    simp only at h
    cases hlocation : o.location disk with
    | error e =>
      rw [hlocation] at h
      cases h
    | ok location =>
      rw [hlocation] at h
      simp only [Prod.mk.injEq] at h
      rcases h with ⟨hresult, hdisk⟩
      rcases hopen : openAt disk (DatabaseName.isSingle name) location with ⟨result, opened⟩
      rw [hopen] at hresult
      cases result with
      | error e => cases hresult
      | ok d' =>
        rcases checked_eq_ok_iff.1 hresult with ⟨rfl, -⟩
        rcases exists_of_openAt hopen hfile with ⟨create, rfl⟩
        rcases Opening.exists_path hlocation with ⟨path, hpath⟩
        refine ⟨path, create, o, fun unused => ?_, hpath⟩
        rw [DatabaseName.parse_eq hname unused disk.tables.length]
        exact hopening

/-! ## Databases that are found again -/

/-- An open database that is found again by its name. -/
structure IsNamed (d : Database) (disk : Disk) (name path : String) (f : DatabaseFile)
    (create : Bool) : Prop where
  isPath : DatabaseName.IsPath name path f.system create
  file : d.file = some f
  place : f.place = Location.along disk.current path
  stands : f.Stands disk d.number
  way : DatabaseName.isSingle name = false → ∃ place, Location.placeOf disk path = .ok place

/-- A database in a file is found again by its name. -/
theorem isNamed_of_connect (hname : DatabaseName.isOwnMemory name = false)
    (h : connect disk name = (.ok d, disk')) (hfile : d.file = some f) :
    ∃ path create, d.IsNamed disk' name path f create := by
  rcases f with ⟨system, place'⟩
  rcases exists_isPath_of_connect hname h hfile with ⟨path, create, hpath⟩
  rcases (connect_eq_ok_iff hpath).1 h with ⟨place, hplace, hopen, hagain⟩
  rcases stands_of_openFile hopen with ⟨hfile', hstands, hcurrent⟩
  rw [hfile] at hfile'
  cases hfile'
  refine ⟨path, create, hpath, hfile, ?_, hstands, hagain⟩
  rw [hcurrent]
  exact Location.placeOf_eq_ok hplace

section

variable (h : d.IsNamed disk name path f create)
include h

/-- A database is also found after its journal is deleted. -/
theorem IsNamed.delete_journal : d.IsNamed (DatabaseFile.delete f.journal disk) name path f create where
  isPath := h.isPath
  file := h.file
  place := by
    rw [DatabaseFile.current_delete]
    exact h.place
  stands := h.stands.delete_journal
  way hsingle := by
    rcases h.way hsingle with ⟨place, hplace⟩
    unfold DatabaseFile.delete
    split
    · exact ⟨place, hplace⟩
    · exact ⟨place, Location.placeOf_clear (DatabaseFile.beside_ne_nil f "-journal") hplace⟩

/-- A database is also found after its rows are replaced. -/
theorem IsNamed.setTable (number : Nat) (rows : List TableRow) :
    d.IsNamed (disk.setTable number rows) name path f create where
  isPath := h.isPath
  file := h.file
  place := h.place
  stands := h.stands.congr fun _ _ => rfl
  way := h.way

/-- A database keeps its name when it is read. -/
theorem IsNamed.afterRead : d.IsNamed (f.afterRead disk) name path f create := by
  rcases h.stands.afterRead_eq with hread | hread
  · rw [hread]
    exact h
  · rw [hread]
    exact h.delete_journal

/-- A database is also found after any call. -/
theorem IsNamed.read : d.IsNamed (d.read disk).2 name path f create := by
  unfold Database.read
  rw [h.file]
  cases d.rows disk with
  | error e => exact h
  | ok rows => exact h.afterRead

/-- A database keeps its name when its rows are replaced. -/
theorem IsNamed.put (rows : List TableRow) : d.IsNamed (d.put disk rows).2 name path f create := by
  unfold Database.put
  cases d.checkWrite disk with
  | error e => exact h
  | ok u =>
    simp only [h.file]
    exact h.delete_journal.setTable d.number rows

/-- A database keeps its name when updates are added. -/
theorem IsNamed.add (ms : List Metric) : d.IsNamed (d.add disk ms).2 name path f create := by
  unfold Database.add
  split
  · exact h
  · have hread := h.read
    rcases hfound : d.read disk with ⟨found, disk'⟩
    rw [hfound] at hread
    cases hmerge : found >>= d.takeIn disk' ms with
    | error e =>
      simp only [hmerge]
      exact hread
    | ok merged =>
      simp only [hmerge]
      exact hread.put merged.2

theorem IsNamed.snapshot : d.IsNamed (d.snapshot disk).2 name path f create := h.read

/-- A database keeps its name when a snapshot is restored. -/
theorem IsNamed.restore (s : Snapshot) : d.IsNamed (d.restore disk s).2 name path f create := by
  unfold Database.restore
  cases TableRow.form.ofSnapshot s with
  | error e => exact h
  | ok rows => exact h.put rows

/-! ## The next connection -/

/-- Whoever opens the name again has the same database. -/
theorem IsNamed.reopen {d' : Database} (hopen : connect disk name = (.ok d', disk')) :
    d' = d ∧ disk' = f.afterRead disk := by
  rcases (connect_eq_ok_iff h.isPath).1 hopen with ⟨place, hplace, hfile, -⟩
  have hsame : place = f.place := (Location.placeOf_eq_ok hplace).trans h.place.symm
  rw [hsame, openFile_of_stands h.stands] at hfile
  cases hcheck : f.checkRead disk with
  | error e =>
    rw [hcheck] at hfile
    cases hfile
  | ok u =>
    rw [hcheck] at hfile
    cases hfile
    exact ⟨congrArg (Database.mk d.number) h.file.symm, rfl⟩

/-- A name that several connections use can be opened again. -/
theorem IsNamed.exists_reopen (hsingle : DatabaseName.isSingle name = false)
    (hread : f.checkRead disk = .ok ()) :
    ∃ d' disk', connect disk name = (.ok d', disk') := by
  rcases h.way hsingle with ⟨place, hplace⟩
  have hsame : place = f.place := (Location.placeOf_eq_ok hplace).trans h.place.symm
  refine ⟨⟨d.number, some f⟩, f.afterRead disk, (connect_eq_ok_iff h.isPath).2
    ⟨place, hplace, ?_, h.afterRead.way⟩⟩
  rw [hsame, openFile_of_stands h.stands, hread]

end

end Database

end MetricRelay
