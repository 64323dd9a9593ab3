import MetricRelay.Disk.Basic

/-!
# Places and paths

What is at each place after a change of a disk, and where a path leads.  A path
still leads to its place when the directories on its way are still there.

Main definitions:

- `Disk.LeadsTo`: a path leads to a name in a directory.

Main results:

- `Disk.entryAt_clear`: what is at each place after one is cleared.
- `Disk.leadsTo_of_target`: where a file can be written.
- `Disk.LeadsTo.congr`: a path leads to its place on another disk.
-/

namespace MetricRelay

namespace Disk

/-! ## Entries -/

/-- A cleared place and the places behind it hold nothing, and every other place
what it held. -/
theorem entryAt_clear (d : Disk) {place : Place} (h : place ≠ []) (p : Place) :
    (d.clear place).entryAt p = if place <+: p then none else d.entryAt p := by
  unfold entryAt clear
  by_cases hp : p = []
  · have hbehind : ¬ place <+: p := by
      rw [hp, List.prefix_nil]
      exact h
    rw [if_pos hp, if_neg hbehind, if_pos hp]
  · rw [if_neg hp, if_neg hp]
    simp only
    induction d.entries with
    | nil =>
      rw [List.filter_nil, List.lookup_nil, ite_self]
    | cons x r ih =>
      rcases x with ⟨q, e⟩
      by_cases hq : place <+: q
      · have hout : (!place.isPrefixOf q) = false := by
          rw [List.isPrefixOf_iff_prefix.2 hq]
          rfl
        rw [List.filter_cons_of_neg (by simp [hout]), ih, List.lookup_cons]
        by_cases hplace : place <+: p
        · rw [if_pos hplace, if_pos hplace]
        · have hne : (p == q) = false := by
            refine beq_eq_false_iff_ne.2 ?_
            rintro rfl
            exact hplace hq
          rw [if_neg hplace, if_neg hplace, hne]
      · have hin : (!place.isPrefixOf q) = true := by
          rw [Bool.not_eq_true', Bool.eq_false_iff]
          exact fun h => hq (List.isPrefixOf_iff_prefix.1 h)
        rw [List.filter_cons_of_pos (by simpa using hin), List.lookup_cons, ih, List.lookup_cons]
        by_cases hpq : p = q
        · subst hpq
          rw [beq_self_eq_true, if_neg hq, if_neg hq]
        · rw [beq_eq_false_iff_ne.2 hpq]

/-- To drop a table changes no entry. -/
@[simp]
theorem entryAt_dropTableAt (d : Disk) (place p : Place) :
    (d.dropTableAt place).entryAt p = d.entryAt p := by
  unfold dropTableAt
  split <;> rfl

/-- A table that is dropped leaves the current directory. -/
@[simp]
theorem current_dropTableAt (d : Disk) (place : Place) :
    (d.dropTableAt place).current = d.current := by
  unfold dropTableAt
  split <;> rfl

/-- No other table is lost with it. -/
theorem table?_dropTableAt {d : Disk} {place : Place} {number : Nat}
    (h : d.entryAt place ≠ some (.database number)) :
    (d.dropTableAt place).table? number = d.table? number := by
  unfold dropTableAt
  split
  · rename_i dropped hentry
    have hne : dropped ≠ number := by
      rintro rfl
      exact h hentry
    unfold table?
    simp only [List.getElem?_set_ne hne]
  · rfl

theorem current_put (d : Disk) (place : Place) (e : Entry) : (d.put place e).current = d.current :=
  rfl

theorem current_clear (d : Disk) (place : Place) : (d.clear place).current = d.current := rfl

/-! ## Walks -/

/-- A step leads on from a directory, with a name that is not too long. -/
theorem step_eq_ok_iff {d : Disk} {q next : Place} {part : String} :
    d.step q part = .ok next ↔
      d.entryAt q = some .directory ∧ Path.size part ≤ Path.greatestName ∧
        next = Path.follow q part := by
  unfold step
  constructor
  · intro h
    split at h
    · cases h
    · rename_i hq
      split at h
      · cases h
      · rename_i hsize
        cases h
        exact ⟨hq, Nat.le_of_not_lt hsize, rfl⟩
    · cases h
  · rintro ⟨hq, hsize, rfl⟩
    rw [hq]
    simp only
    rw [if_neg (Nat.not_lt.2 hsize)]

/-- A walk goes the same way on another disk that has the same directories among
the places of some kind, if places outside that kind are never left again. -/
theorem foldlM_step_congr {d d' : Disk} {P : Place → Prop}
    (hkeep : ∀ q, P q → d.entryAt q = some .directory → d'.entryAt q = some .directory)
    (hback : ∀ q part, d.entryAt q = some .directory → P (Path.follow q part) → P q)
    {parts : List String} {q r : Place} (h : parts.foldlM d.step q = .ok r) (hr : P r) :
    parts.foldlM d'.step q = .ok r ∧ P q := by
  induction parts generalizing q with
  | nil =>
    cases h
    exact ⟨rfl, hr⟩
  | cons part parts ih =>
    rw [List.foldlM_cons] at h ⊢
    cases hstep : d.step q part with
    | error e =>
      rw [hstep] at h
      cases h
    | ok next =>
      rw [hstep] at h
      rcases step_eq_ok_iff.1 hstep with ⟨hdirectory, hsize, rfl⟩
      rcases ih h with ⟨hrest, hnext⟩
      have hq := hback q part hdirectory hnext
      have hstep' : d'.step q part = .ok (Path.follow q part) :=
        step_eq_ok_iff.2 ⟨hkeep q hq hdirectory, hsize, rfl⟩
      rw [hstep']
      exact ⟨hrest, hq⟩

/-- Where a path starts depends on the disk by its current directory only. -/
theorem start_eq_ok_iff {d : Disk} {path : String} {base : Place} :
    d.start path = .ok base ↔
      path ≠ "" ∧ path.toList.contains '\x00' = false ∧ Path.size path ≤ Path.greatestPath ∧
        base = if Path.isAbsolute path then [] else d.current := by
  unfold start
  constructor
  · intro h
    split at h
    · cases h
    · rename_i hne
      split at h
      · cases h
      · rename_i hzero
        split at h
        · cases h
        · rename_i hsize
          exact ⟨hne, Bool.eq_false_iff.2 hzero, Nat.le_of_not_lt hsize, (Except.ok.inj h).symm⟩
  · rintro ⟨hne, hzero, hsize, rfl⟩
    rw [if_neg hne, hzero, if_neg Bool.false_ne_true, if_neg (Nat.not_lt.2 hsize)]

/-- A walk ends with the step to the last name of a path. -/
theorem walk_of_parts {d : Disk} {path name : String} {base dir : Place} {parts : List String}
    (hstart : d.start path = .ok base) (hparts : Path.parts path = parts ++ [name])
    (hwalk : parts.foldlM d.step base = .ok dir) : d.walk path = d.step dir name := by
  rw [walk, hstart, hparts]
  simp only [bind, Except.bind, List.foldlM_append, hwalk, List.foldlM_cons, List.foldlM_nil, pure,
    Except.pure]
  cases d.step dir name <;> rfl

/-- A path leads to a name in a directory, whether or not something is there. -/
structure LeadsTo (d : Disk) (path : String) (dir : Place) (name : String) : Prop where
  walk_dir : ∃ base parts, d.start path = .ok base ∧ Path.parts path = parts ++ [name] ∧
    parts.foldlM d.step base = .ok dir
  directory : d.entryAt dir = some .directory
  size_le : Path.size name ≤ Path.greatestName
  not_step : Path.isStep name = false

/-- A name that is no step up is added to a place. -/
theorem follow_of_not_step {name : String} (h : Path.isStep name = false) (dir : Place) :
    Path.follow dir name = dir ++ [name] := by
  have hup : name ≠ ".." := by
    rintro rfl
    cases h
  rw [Path.follow, if_neg hup, h]
  rfl

/-- A path that leads to a name leads to its place. -/
theorem LeadsTo.walk_eq {d : Disk} {path name : String} {dir : Place} (h : d.LeadsTo path dir name) :
    d.walk path = .ok (dir ++ [name]) := by
  rcases h.walk_dir with ⟨base, parts, hstart, hparts, hwalk⟩
  have hstep : d.step dir name = .ok (dir ++ [name]) :=
    step_eq_ok_iff.2 ⟨h.directory, h.size_le, (follow_of_not_step h.not_step dir).symm⟩
  rw [walk_of_parts hstart hparts hwalk, hstep]

/-- A file can be written where a path leads, unless a directory is there. -/
theorem LeadsTo.target_eq {d : Disk} {path name : String} {dir : Place}
    (h : d.LeadsTo path dir name) (hfree : d.entryAt (dir ++ [name]) ≠ some .directory) :
    d.target path = .ok (dir ++ [name]) := by
  rcases h.walk_dir with ⟨base, parts, hstart, hparts, hwalk⟩
  have hlast : (Path.parts path).getLast?.all Path.isStep = false := by
    rw [hparts, List.getLast?_concat]
    exact h.not_step
  rw [target, h.walk_eq]
  simp only [bind, Except.bind, hlast, hfree, decide_false, Bool.or_self, Bool.false_eq_true,
    if_false]

/-- Where a file can be written, a path leads to a name in a directory. -/
theorem leadsTo_of_target {d : Disk} {path : String} {place : Place}
    (h : d.target path = .ok place) :
    ∃ dir name, d.LeadsTo path dir name ∧ place = dir ++ [name] ∧
      d.entryAt place ≠ some .directory := by
  unfold target at h
  cases hwalk : d.walk path with
  | error e =>
    rw [hwalk] at h
    cases h
  | ok p =>
    rw [hwalk] at h
    simp only [bind, Except.bind] at h
    split at h
    · cases h
    · rename_i hfree
      obtain rfl : p = place := Except.ok.inj h
      rw [Bool.or_eq_true, not_or, decide_eq_true_eq] at hfree
      rcases hfree with ⟨hlast, hplace⟩
      have hne : Path.parts path ≠ [] := by
        intro hnil
        rw [hnil] at hlast
        exact hlast rfl
      have hparts := List.dropLast_concat_getLast hne
      have hstep : Path.isStep ((Path.parts path).getLast hne) = false := by
        rw [List.getLast?_eq_some_getLast hne] at hlast
        exact Bool.eq_false_iff.2 hlast
      unfold walk at hwalk
      cases hstart : d.start path with
      | error e =>
        rw [hstart] at hwalk
        cases hwalk
      | ok base =>
        rw [hstart, ← hparts] at hwalk
        simp only [bind, Except.bind, List.foldlM_append] at hwalk
        cases hdir : (Path.parts path).dropLast.foldlM d.step base with
        | error e =>
          rw [hdir] at hwalk
          cases hwalk
        | ok dir =>
          rw [hdir] at hwalk
          simp only [List.foldlM_cons, List.foldlM_nil, bind, Except.bind] at hwalk
          cases hlastStep : d.step dir ((Path.parts path).getLast hne) with
          | error e =>
            rw [hlastStep] at hwalk
            cases hwalk
          | ok next =>
            rw [hlastStep] at hwalk
            obtain rfl : next = p := Except.ok.inj hwalk
            rcases step_eq_ok_iff.1 hlastStep with ⟨hdirectory, hsize, hnext⟩
            rw [follow_of_not_step hstep] at hnext
            exact ⟨dir, _, ⟨⟨base, _, hstart, hparts.symm, hdir⟩, hdirectory, hsize, hstep⟩, hnext,
              hplace⟩

/-- A path leads to the same place on a disk that has the same directories among
the places of some kind. -/
theorem LeadsTo.congr {d d' : Disk} {path name : String} {dir : Place} {P : Place → Prop}
    (h : d.LeadsTo path dir name) (hcurrent : d'.current = d.current)
    (hkeep : ∀ q, P q → d.entryAt q = some .directory → d'.entryAt q = some .directory)
    (hback : ∀ q part, d.entryAt q = some .directory → P (Path.follow q part) → P q)
    (hdir : P dir) : d'.LeadsTo path dir name := by
  rcases h.walk_dir with ⟨base, parts, hstart, hparts, hwalk⟩
  have hstart' : d'.start path = .ok base := by
    rw [start_eq_ok_iff, hcurrent]
    exact start_eq_ok_iff.1 hstart
  exact ⟨⟨base, parts, hstart', hparts, (foldlM_step_congr hkeep hback hwalk hdir).1⟩,
    hkeep dir hdir h.directory, h.size_le, h.not_step⟩

/-- A path leads to its place also after a file is put somewhere. -/
theorem LeadsTo.put {d : Disk} {path name : String} {dir place : Place}
    (h : d.LeadsTo path dir name) (hplace : place ≠ []) (hfree : d.entryAt place ≠ some .directory)
    (e : Entry) : (d.put place e).LeadsTo path dir name := by
  refine h.congr (P := fun _ => True) (d.current_put place e) (fun q _ hq => ?_)
    (fun _ _ _ _ => trivial) trivial
  have hne : q ≠ place := by
    rintro rfl
    exact hfree hq
  rw [entryAt_put d place q e hplace, if_neg hne]
  exact hq

/-- A path did lead to its place before a file was put somewhere. -/
theorem LeadsTo.of_put {d : Disk} {path name : String} {dir place : Place}
    {content : Utf8.Bytes} (h : (d.put place (.file content)).LeadsTo path dir name)
    (hplace : place ≠ []) : d.LeadsTo path dir name := by
  refine h.congr (P := fun _ => True) (d.current_put place _).symm (fun q _ hq => ?_)
    (fun _ _ _ _ => trivial) trivial
  rw [entryAt_put d place q _ hplace] at hq
  by_cases hne : q = place
  · rw [if_pos hne] at hq
    cases hq
  · rw [if_neg hne] at hq
    exact hq

/-- To drop a table does not matter to paths. -/
theorem leadsTo_dropTableAt {d : Disk} {path name : String} {dir place : Place} :
    (d.dropTableAt place).LeadsTo path dir name ↔ d.LeadsTo path dir name := by
  constructor
  · intro h
    refine h.congr (P := fun _ => True) (d.current_dropTableAt place).symm (fun q _ hq => ?_)
      (fun _ _ _ _ => trivial) trivial
    rw [entryAt_dropTableAt] at hq
    exact hq
  · intro h
    refine h.congr (P := fun _ => True) (d.current_dropTableAt place) (fun q _ hq => ?_)
      (fun _ _ _ _ => trivial) trivial
    rw [entryAt_dropTableAt]
    exact hq

/-- A step from behind a place that is no directory stays behind it. -/
theorem prefix_follow {d : Disk} {place q : Place} (hfree : d.entryAt place ≠ some .directory)
    (hq : d.entryAt q = some .directory) (hbehind : place <+: q) (part : String) :
    place <+: Path.follow q part := by
  rcases hbehind with ⟨t, rfl⟩
  have ht : t ≠ [] := by
    rintro rfl
    rw [List.append_nil] at hq
    exact hfree hq
  unfold Path.follow
  split
  · rw [List.dropLast_append_of_ne_nil ht]
    exact List.prefix_append _ _
  · split
    · exact List.prefix_append _ _
    · rw [List.append_assoc]
      exact List.prefix_append _ _

/-- A path leads to its place also after something else is cleared.  What is
cleared is no directory, so the way to the place does not go through it. -/
theorem LeadsTo.clear {d : Disk} {path name : String} {dir place : Place}
    (h : d.LeadsTo path dir name) (hplace : place ≠ []) (hfree : d.entryAt place ≠ some .directory)
    (hdir : ¬ place <+: dir) : (d.clear place).LeadsTo path dir name := by
  refine h.congr (P := fun q => ¬ place <+: q) (d.current_clear place) (fun q hout hq => ?_)
    (fun q part hq hout hin => hout (prefix_follow hfree hq hin part)) hdir
  rw [entryAt_clear d hplace, if_neg hout]
  exact hq

/-- What is where a path leads. -/
theorem LeadsTo.look_eq {d : Disk} {path name : String} {dir : Place} (h : d.LeadsTo path dir name) :
    d.look path =
      match d.entryAt (dir ++ [name]) with
      | some e => .ok e
      | none => .error .missing := by
  rw [look, h.walk_eq]
  rfl

/-! ## Changes -/

/-- A file is written where the path leads to a place for one, and replaces what was there.
-/
theorem write_eq_ok_iff {d d' : Disk} {path : String} {content : Utf8.Bytes} :
    d.write path content = .ok d' ↔
      ∃ place, d.target path = .ok place ∧
        d' = (d.dropTableAt place).put place (.file content) := by
  unfold write
  cases htarget : d.target path with
  | error fault =>
    constructor
    · intro h
      cases h
    · rintro ⟨place, h, -⟩
      cases h
  | ok place =>
    constructor
    · intro h
      exact ⟨place, rfl, (Except.ok.inj h).symm⟩
    · rintro ⟨place', h, rfl⟩
      rw [Except.ok.inj h]
      rfl

/-- What is renamed is there, is no directory, and has a place to go to. -/
theorem rename_eq_ok_iff {d d' : Disk} {source destination : String} :
    d.rename source destination = .ok d' ↔
      ∃ old new e, d.walk source = .ok old ∧ d.target destination = .ok new ∧
        d.entryAt old = some e ∧ e ≠ .directory ∧ d' = (d.clear old).put new e := by
  unfold rename
  constructor
  · intro h
    cases hwalk : d.walk source with
    | error fault =>
      rw [hwalk] at h
      cases h
    | ok old =>
      rw [hwalk] at h
      simp only [bind, Except.bind] at h
      cases htarget : d.target destination with
      | error fault =>
        rw [htarget] at h
        cases h
      | ok new =>
        rw [htarget] at h
        simp only at h
        split at h
        · cases h
        · cases h
        · rename_i e hne hentry
          exact ⟨old, new, e, rfl, rfl, hentry, hne, (Except.ok.inj h).symm⟩
  · rintro ⟨old, new, e, hwalk, htarget, hentry, hne, rfl⟩
    rw [hwalk]
    simp only [bind, Except.bind, htarget, hentry]

end Disk

end MetricRelay
