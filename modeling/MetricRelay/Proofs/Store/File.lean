import MetricRelay.Proofs.Disk.Places
import MetricRelay.Proofs.Store.Records
import MetricRelay.Store.File

/-!
# The store in a file

Where a file could be written once, it can be written again, whatever its
content: the write leaves every directory on the way to it alone.  So a store in
a file never fails on a disk that nobody else changes, and its records are those
of a list of metrics.

Main definitions:

- `MetricsFile.Ready`: a metrics file and its draft can be written.
- `MetricsFile.Unharmed`: on another disk a metrics file is what it was.
- `MetricsFile.Holds`: the content of a store in a file.

Main results:

- `MetricsFile.ready_of_write`: where one write succeeds, the file is ready.
- `MetricsFile.Ready.write_eq`: a write succeeds and leaves the file ready.
- `MetricsFile.read_write` and `MetricsFile.unharmed_write`: a write on any disk replaces the
  records or harms nothing.
- `MetricsFile.reads_back`: whatever is written is read back.
- `MetricsFile.Holds.add`, `MetricsFile.Holds.restore`: the content after a call.
-/

namespace MetricRelay

/-! ## Names -/

/-- An ending belongs to the last name of a path. -/
theorem Path.parts_append {path ending name : String} {parts : List String}
    (hending : '/' ∉ ending.toList) (h : Path.parts path = parts ++ [name]) :
    Path.parts (path ++ ending) = parts ++ [name ++ ending] := by
  unfold Path.parts at h ⊢
  rcases List.map_eq_append_iff.1 h with ⟨before, last, hsplit, rfl, hlast⟩
  rcases List.map_eq_singleton_iff.1 hlast with ⟨part, rfl, rfl⟩
  rw [String.toList_append, Text.splitAt_append hending hsplit, List.map_append,
    List.map_singleton, String.ofList_append, String.ofList_toList]

namespace MetricsFile

variable {f : MetricsFile} {disk : Disk} {dir : Place} {name : String} {c : Content}

/-! ## Writing -/

/-- A metrics file and its draft can be written: both paths lead to a name in
the same directory, and neither is that of a directory. -/
structure Ready (f : MetricsFile) (disk : Disk) (dir : Place) (name : String) : Prop where
  path : disk.LeadsTo f.path dir name
  draft : disk.LeadsTo f.draftPath dir (name ++ ".tmp")
  path_free : disk.entryAt (dir ++ [name]) ≠ some .directory
  draft_free : disk.entryAt (dir ++ [name ++ ".tmp"]) ≠ some .directory

/-- The draft has another name than the file. -/
theorem draft_ne (name : String) : name ++ ".tmp" ≠ name := by
  intro h
  have hlength := congrArg (fun s => s.toList.length) h
  simp at hlength

/-- The draft is in another place than the file. -/
theorem place_ne_draft (dir : Place) (name : String) : dir ++ [name] ≠ dir ++ [name ++ ".tmp"] := by
  intro h
  have hname := List.append_cancel_left h
  exact draft_ne name (List.cons.inj hname).1.symm

theorem concat_ne_nil (dir : Place) (name : String) : dir ++ [name] ≠ [] :=
  List.append_ne_nil_of_right_ne_nil dir (List.cons_ne_nil name [])

/-- Where the draft of a path leads, the path leads to the same directory. -/
theorem walk_of_draft {base : Place} {name' : String} (hstart : disk.start f.path = .ok base)
    (hdraft : disk.LeadsTo f.draftPath dir name') :
    ∃ parts name, Path.parts f.path = parts ++ [name] ∧
      parts.foldlM disk.step base = .ok dir ∧ name' = name ++ ".tmp" := by
  rcases hdraft.walk_dir with ⟨base', parts', hstart', hparts', hwalk'⟩
  have hne : Path.parts f.path ≠ [] := by
    unfold Path.parts
    simpa using Text.splitAt_ne_nil '/' f.path.toList
  have hparts := (List.dropLast_concat_getLast hne).symm
  have hpath : f.draftPath = f.path ++ ".tmp" := rfl
  rw [hpath, Path.parts_append (by decide) hparts] at hparts'
  rcases List.append_inj' hparts' rfl with ⟨rfl, hname⟩
  rcases Disk.start_eq_ok_iff.1 hstart with ⟨hempty, -, -, hbase⟩
  rcases Disk.start_eq_ok_iff.1 hstart' with ⟨-, -, -, hbase'⟩
  have habsolute : Path.isAbsolute f.draftPath = Path.isAbsolute f.path := by
    have hcons : f.path.toList ≠ [] := by
      intro hnil
      exact hempty (String.toList_inj.1 hnil)
    unfold Path.isAbsolute
    rw [hpath, String.toList_append, List.head?_append_of_ne_nil _ hcons]
  rw [habsolute, ← hbase] at hbase'
  rw [hbase'] at hwalk'
  exact ⟨_, _, hparts, hwalk', (List.cons.inj hname).1.symm⟩

/-- The draft of a path is in the same directory. -/
theorem leadsTo_draft {dir' : Place} {name' : String} (h : disk.LeadsTo f.path dir name)
    (hdraft : disk.LeadsTo f.draftPath dir' name') : dir' = dir ∧ name' = name ++ ".tmp" := by
  rcases h.walk_dir with ⟨base, parts, hstart, hparts, hwalk⟩
  rcases walk_of_draft hstart hdraft with ⟨parts', name'', hparts', hwalk', rfl⟩
  rw [hparts] at hparts'
  rcases List.append_inj' hparts' rfl with ⟨rfl, hname⟩
  rw [hwalk] at hwalk'
  rw [(List.cons.inj hname).1]
  exact ⟨(Except.ok.inj hwalk').symm, rfl⟩

/-- To write a file is to write the draft and to rename it. -/
theorem write_eq_ok_iff {rs : List StoredRecord} {disk' : Disk} :
    f.write disk rs = (.ok (), disk') ↔
      ∃ drafted, disk.write f.draftPath (StoredRecord.file rs) = .ok drafted ∧
        drafted.rename f.draftPath f.path = .ok disk' := by
  unfold write
  cases hwrite : disk.write f.draftPath (StoredRecord.file rs) with
  | error fault => simp
  | ok drafted =>
    simp only [Except.ok.injEq, exists_eq_left']
    cases hrename : drafted.rename f.draftPath f.path with
    | error fault => simp
    | ok renamed => simp

/-- Where one write succeeds, the file is ready. -/
theorem ready_of_write {rs : List StoredRecord} (h : (f.write disk rs).1 = .ok ()) :
    ∃ dir name, f.Ready disk dir name := by
  rcases write_eq_ok_iff.1 (Prod.ext h rfl) with ⟨drafted, hwrite, hrename⟩
  rcases Disk.write_eq_ok_iff.1 hwrite with ⟨draft, htarget, rfl⟩
  rcases Disk.leadsTo_of_target htarget with ⟨dir', name', hdraft, rfl, hdraftFree⟩
  rcases Disk.rename_eq_ok_iff.1 hrename with ⟨old, new, e, -, hnew, -⟩
  rcases Disk.leadsTo_of_target hnew with ⟨dir, name, hpath, rfl, hfree⟩
  have hpath' := Disk.leadsTo_dropTableAt.1 (hpath.of_put (concat_ne_nil dir' name'))
  rcases leadsTo_draft hpath' hdraft with ⟨rfl, rfl⟩
  rw [Disk.entryAt_put _ _ _ _ (concat_ne_nil _ _), if_neg (place_ne_draft dir' name),
    Disk.entryAt_dropTableAt] at hfree
  exact ⟨dir', name, hpath', hdraft, hfree, hdraftFree⟩

/-- After the draft is written the file is still ready. -/
theorem Ready.put_draft (h : f.Ready disk dir name) (content : Utf8.Bytes) :
    f.Ready ((disk.dropTableAt (dir ++ [name ++ ".tmp"])).put (dir ++ [name ++ ".tmp"])
      (.file content)) dir name := by
  have hdraft := concat_ne_nil dir (name ++ ".tmp")
  have hfree := h.draft_free
  rw [← Disk.entryAt_dropTableAt disk (dir ++ [name ++ ".tmp"])] at hfree
  refine ⟨(Disk.leadsTo_dropTableAt.2 h.path).put hdraft hfree _,
    (Disk.leadsTo_dropTableAt.2 h.draft).put hdraft hfree _, ?_, ?_⟩
  · rw [Disk.entryAt_put _ _ _ _ hdraft, if_neg (place_ne_draft dir name),
      Disk.entryAt_dropTableAt]
    exact h.path_free
  · rw [Disk.entryAt_put _ _ _ _ hdraft, if_pos rfl]
    intro h
    cases h

/-- After the draft has taken the place of the file, the file is still ready. -/
theorem Ready.rename_draft (h : f.Ready disk dir name) (content : Utf8.Bytes) :
    f.Ready ((disk.clear (dir ++ [name ++ ".tmp"])).put (dir ++ [name]) (.file content))
      dir name := by
  have hplace := concat_ne_nil dir name
  have hdraft := concat_ne_nil dir (name ++ ".tmp")
  have hdir : ¬ dir ++ [name ++ ".tmp"] <+: dir := by
    intro hbehind
    have hlength := hbehind.length_le
    rw [List.length_append, List.length_singleton] at hlength
    omega
  have hfree : (disk.clear (dir ++ [name ++ ".tmp"])).entryAt (dir ++ [name]) ≠
      some .directory := by
    rw [Disk.entryAt_clear _ hdraft]
    split
    · intro h
      cases h
    · exact h.path_free
  refine ⟨(h.path.clear hdraft h.draft_free hdir).put hplace hfree _,
    (h.draft.clear hdraft h.draft_free hdir).put hplace hfree _, ?_, ?_⟩
  · rw [Disk.entryAt_put _ _ _ _ hplace, if_pos rfl]
    intro h
    cases h
  · rw [Disk.entryAt_put _ _ _ _ hplace, if_neg (Ne.symm (place_ne_draft dir name)),
      Disk.entryAt_clear _ hdraft, if_pos (List.prefix_refl _)]
    intro h
    cases h

/-- A write succeeds, the file has what was written, and it is ready again. -/
theorem Ready.write_eq (h : f.Ready disk dir name) (rs : List StoredRecord) :
    ∃ disk', f.write disk rs = (.ok (), disk') ∧ f.Ready disk' dir name ∧
      disk'.entryAt (dir ++ [name]) = some (.file (StoredRecord.file rs)) := by
  have hdrafted := h.put_draft (StoredRecord.file rs)
  refine ⟨_, write_eq_ok_iff.2 ⟨_, Disk.write_eq_ok_iff.2 ⟨_, h.draft.target_eq h.draft_free, rfl⟩,
    Disk.rename_eq_ok_iff.2 ⟨_, _, .file (StoredRecord.file rs), hdrafted.draft.walk_eq,
      hdrafted.path.target_eq hdrafted.path_free, ?_, ?_, rfl⟩⟩,
    hdrafted.rename_draft (StoredRecord.file rs), ?_⟩
  · rw [Disk.entryAt_put _ _ _ _ (concat_ne_nil _ _), if_pos rfl]
  · intro h
    cases h
  · rw [Disk.entryAt_put _ _ _ _ (concat_ne_nil _ _), if_pos rfl]

/-! ## Failures -/

/-- A file is not under the name of its draft. -/
theorem follow_ne_draft (dir : Place) (name : String) :
    Path.follow dir name ≠ dir ++ [name ++ ".tmp"] := by
  intro h
  unfold Path.follow at h
  split at h
  · have hlength := congrArg List.length h
    rw [List.length_dropLast, List.length_append, List.length_singleton] at hlength
    omega
  · split at h
    · exact absurd (List.self_eq_append_right.1 h) (List.cons_ne_nil _ _)
    · exact place_ne_draft dir name h

/-- Whatever is written to the draft, the path of the file leads where it did. -/
theorem look_of_write_draft {content : Utf8.Bytes} {drafted : Disk}
    (h : disk.write f.draftPath content = .ok drafted) :
    drafted.look f.path = disk.look f.path := by
  rcases Disk.write_eq_ok_iff.1 h with ⟨draft, htarget, hdrafted⟩
  rcases Disk.leadsTo_of_target htarget with ⟨dir, name', hdraft, rfl, hfree⟩
  have hentry (q : Place) (hq : q ≠ dir ++ [name']) : drafted.entryAt q = disk.entryAt q := by
    rw [hdrafted, Disk.entryAt_put _ _ _ _ (concat_ne_nil dir name'), if_neg hq,
      Disk.entryAt_dropTableAt]
  have hcurrent : drafted.current = disk.current := by
    rw [hdrafted, Disk.current_put, Disk.current_dropTableAt]
  have hstarts : drafted.start f.path = disk.start f.path := by
    unfold Disk.start
    rw [hcurrent]
  cases hstart : disk.start f.path with
  | error fault =>
    unfold Disk.look Disk.walk
    rw [hstarts, hstart]
    rfl
  | ok base =>
    rcases walk_of_draft hstart hdraft with ⟨parts, name, hparts, hwalk, rfl⟩
    -- The way to the directory does not go through the draft, which is none.
    have hwalk' : parts.foldlM drafted.step base = .ok dir := by
      refine (Disk.foldlM_step_congr (P := fun _ => True) (fun q _ hq => ?_) (fun _ _ _ _ => trivial)
        hwalk trivial).1
      rw [hentry q fun heq => hfree (heq ▸ hq)]
      exact hq
    have hdir : dir ≠ dir ++ [name ++ ".tmp"] := fun heq =>
      List.cons_ne_nil _ _ (List.self_eq_append_right.1 heq)
    have hstep : drafted.step dir name = disk.step dir name := by
      unfold Disk.step
      rw [hentry dir hdir]
    unfold Disk.look
    rw [Disk.walk_of_parts (hstarts.trans hstart) hparts hwalk',
      Disk.walk_of_parts hstart hparts hwalk, hstep]
    cases hnext : disk.step dir name with
    | error fault => rfl
    | ok next =>
      rcases Disk.step_eq_ok_iff.1 hnext with ⟨-, -, rfl⟩
      simp only [bind, Except.bind, hentry _ (follow_ne_draft dir name)]

/-- On another disk the path of a file leads to the same thing, at most the draft differs,
and if that was a database, its rows. -/
structure Unharmed (f : MetricsFile) (disk disk' : Disk) : Prop where
  look : disk'.look f.path = disk.look f.path
  behind : ∀ {dir name}, disk.LeadsTo f.path dir name → ∀ {q}, dir ++ [name] <+: q →
    disk'.entryAt q = disk.entryAt q
  others : ∀ {q}, disk.walk f.draftPath ≠ .ok q → disk'.entryAt q = disk.entryAt q
  tables : ∀ {number}, (∀ q, disk.walk f.draftPath = .ok q →
    disk.entryAt q ≠ some (.database number)) → disk'.table? number = disk.table? number

theorem Unharmed.refl (f : MetricsFile) (disk : Disk) : f.Unharmed disk disk :=
  ⟨rfl, fun _ _ _ => rfl, fun _ => rfl, fun _ => rfl⟩

/-- A file that is not harmed is read as before. -/
theorem Unharmed.read_eq {disk' : Disk} (h : f.Unharmed disk disk') :
    f.read disk' = f.read disk := by
  unfold read
  rw [h.look]

/-- Nothing is harmed by a draft. -/
theorem unharmed_of_write_draft {content : Utf8.Bytes} {drafted : Disk}
    (h : disk.write f.draftPath content = .ok drafted) : f.Unharmed disk drafted := by
  have hlook := look_of_write_draft h
  rcases Disk.write_eq_ok_iff.1 h with ⟨draft, htarget, rfl⟩
  rcases Disk.leadsTo_of_target htarget with ⟨dir', name', hdraft, rfl, -⟩
  have hentry {q : Place} (hq : q ≠ dir' ++ [name']) :
      ((disk.dropTableAt (dir' ++ [name'])).put (dir' ++ [name']) (.file content)).entryAt q =
        disk.entryAt q := by
    rw [Disk.entryAt_put _ _ _ _ (concat_ne_nil dir' name'), if_neg hq, Disk.entryAt_dropTableAt]
  refine ⟨hlook, fun {dir name} hpath {q} hbehind => hentry ?_, fun {q} hq => hentry ?_, ?_⟩
  · rcases leadsTo_draft hpath hdraft with ⟨rfl, rfl⟩
    -- The draft is as deep as the file, so it is not behind it.
    rintro rfl
    refine place_ne_draft dir' name (hbehind.eq_of_length ?_)
    simp only [List.length_append, List.length_singleton]
  · rintro rfl
    exact hq hdraft.walk_eq
  · intro number hnumber
    exact Disk.table?_dropTableAt (hnumber _ hdraft.walk_eq)

/-- A write that fails harms nothing. -/
theorem unharmed_write {rs : List StoredRecord} {e : Failure}
    (h : (f.write disk rs).1 = .error e) : f.Unharmed disk (f.write disk rs).2 := by
  unfold write at h ⊢
  cases hwrite : disk.write f.draftPath (StoredRecord.file rs) with
  | error fault => exact .refl f disk
  | ok drafted =>
    rw [hwrite] at h
    simp only at h ⊢
    cases hrename : drafted.rename f.draftPath f.path with
    | error fault => exact unharmed_of_write_draft hwrite
    | ok renamed =>
      rw [hrename] at h
      cases h

/-- Updates that fail harm nothing, whichever of them is refused. -/
theorem unharmed_add {ms : List Metric} {e : Failure} (h : (f.add disk ms).1 = .error e) :
    f.Unharmed disk (f.add disk ms).2 := by
  unfold add at h ⊢
  cases hread : f.read disk with
  | error e' => exact .refl f disk
  | ok rs =>
    rw [hread] at h
    simp only at h ⊢
    cases hmerge : StoredRecord.form.mergeAll ms rs with
    | error e' => exact .refl f disk
    | ok merged =>
      rcases merged with ⟨answers, rs'⟩
      rw [hmerge] at h
      simp only at h ⊢
      cases hresult : (f.write disk rs').1 with
      | error e' => exact unharmed_write hresult
      | ok u =>
        rw [hresult] at h
        cases h

/-- A snapshot that is not taken harms nothing. -/
theorem unharmed_restore {s : Snapshot} {e : Failure} (h : (f.restore disk s).1 = .error e) :
    f.Unharmed disk (f.restore disk s).2 := by
  unfold restore at h ⊢
  cases hrecords : StoredRecord.form.ofSnapshot s with
  | error e' => exact .refl f disk
  | ok rs =>
    rw [hrecords] at h
    exact unharmed_write h

/-! ## Successes -/

/-- A write that succeeds leaves the text of the records under the path. -/
theorem look_write {rs : List StoredRecord} (h : (f.write disk rs).1 = .ok ()) :
    (f.write disk rs).2.look f.path = .ok (.file (StoredRecord.file rs)) := by
  rcases ready_of_write h with ⟨dir, name, hready⟩
  rcases hready.write_eq rs with ⟨disk', hwrite, hready', hentry⟩
  have hlook := hready'.path.look_eq
  rw [hentry] at hlook
  rw [hwrite]
  exact hlook

/-- Records are read from their text, however it came to be there. -/
theorem read_of_look {rs : List StoredRecord}
    (h : disk.look f.path = .ok (.file (StoredRecord.file rs))) : f.read disk = .ok rs := by
  rw [read, h]
  simp only [StoredRecord.readFile?_file]

/-- A file that is missing or has no content has no records. -/
theorem read_of_absent
    (h : disk.look f.path = .error .missing ∨ disk.look f.path = .ok (.file [])) :
    f.read disk = .ok [] := by
  rcases h with hmissing | hempty
  · rw [read, hmissing]
  · rw [read, hempty]
    rfl

/-- A write that succeeds leaves exactly the records that were written. -/
theorem read_write {rs : List StoredRecord} (h : (f.write disk rs).1 = .ok ()) :
    f.read (f.write disk rs).2 = .ok rs :=
  read_of_look (look_write h)

/-- A snapshot that is taken leaves no other records. -/
theorem read_restore {s : Snapshot} {ms : List Metric} (hparse : s.parse = .ok ms)
    (h : (f.restore disk s).1 = .ok ()) :
    f.read (f.restore disk s).2 = .ok (ms.map StoredRecord.ofMetric) := by
  unfold restore RowForm.ofSnapshot at h ⊢
  rw [hparse] at h ⊢
  exact read_write h

/-- Whether records can be written depends on the disk alone, whatever texts they hold.
Where they were written, and wherever else their text is found, they are read back in
their order. -/
theorem reads_back (f : MetricsFile) (disk : Disk) (rs : List StoredRecord) :
    ((f.write disk rs).1 = .ok () ↔ ∃ dir name, f.Ready disk dir name) ∧
      ((f.write disk rs).1 = .ok () →
        (f.write disk rs).2.look f.path = .ok (.file (StoredRecord.file rs)) ∧
          f.read (f.write disk rs).2 = .ok rs) ∧
      (disk.look f.path = .ok (.file (StoredRecord.file rs)) → f.read disk = .ok rs) ∧
      (disk.look f.path = .error .missing ∨ disk.look f.path = .ok (.file []) →
        f.read disk = .ok []) := by
  refine ⟨⟨ready_of_write, ?_⟩, fun h => ⟨look_write h, read_write h⟩, read_of_look,
    read_of_absent⟩
  rintro ⟨dir, name, hready⟩
  rcases hready.write_eq rs with ⟨disk', hwrite, -, -⟩
  rw [hwrite]

/-- Texts that have to be escaped, that are long in bytes, that are empty, or that look
like a record themselves; and no records at all. -/
theorem reads_back_of_odd_texts :
    let f : MetricsFile := ⟨"metrics.json"⟩
    let rs : List StoredRecord := [⟨"", "a\"b\\c\n\t\x00\x1f", "\u2028é😀"⟩,
      ⟨"gauge", "\x7b\"type\":\"counter\"\x7d", ""⟩, ⟨"", "", ""⟩]
    let disk := Disk.withDirectory ["data"]
    f.read disk = .ok [] ∧ f.read (f.write disk rs).2 = .ok rs ∧
      f.read (f.write (f.write disk rs).2 []).2 = .ok [] := by
  intro f rs disk
  have hmissing : disk.look f.path = .error .missing := by decide +kernel
  have hwrite : (f.write disk rs).1 = .ok () := by decide +kernel
  have hagain : (f.write (f.write disk rs).2 []).1 = .ok () := by decide +kernel
  exact ⟨(reads_back f disk rs).2.2.2 (.inl hmissing), ((reads_back f disk rs).2.1 hwrite).2,
    ((reads_back f _ []).2.1 hagain).2⟩

/-! ## Content -/

/-- A store in a file has the records of a content, and can be written. -/
structure Holds (f : MetricsFile) (disk : Disk) (c : Content) : Prop where
  ready : ∃ dir name, f.Ready disk dir name
  read_eq : f.read disk = .ok (c.map StoredRecord.ofMetric)

/-- After a write the store holds what was written. -/
theorem Holds.write (h : f.Holds disk c) (c' : Content) :
    ∃ disk', f.write disk (c'.map StoredRecord.ofMetric) = (.ok (), disk') ∧ f.Holds disk' c' := by
  rcases h.ready with ⟨dir, name, hready⟩
  rcases hready.write_eq (c'.map StoredRecord.ofMetric) with ⟨disk', hwrite, hready', -⟩
  have hread := read_write (congrArg Prod.fst hwrite)
  rw [hwrite] at hread
  exact ⟨disk', hwrite, ⟨dir, name, hready'⟩, hread⟩

/-- Finite updates are added one after the other. -/
theorem Holds.add (h : f.Holds disk c) (hc : c.IsFinite) {ms : List Metric}
    (hfinite : ∀ m ∈ ms, m.value.isFinite = true) :
    ∃ disk', f.add disk ms = (.ok (Content.add ms c).1, disk') ∧
      f.Holds disk' (Content.add ms c).2 := by
  rcases h.write (Content.add ms c).2 with ⟨disk', hwrite, hholds⟩
  refine ⟨disk', ?_, hholds⟩
  have hmerge := StoredRecord.represents.mergeAll_map hc hfinite
  have hof : StoredRecord.form.ofMetric = StoredRecord.ofMetric := rfl
  rw [hof] at hmerge
  rw [MetricsFile.add, h.read_eq]
  simp only [hmerge, hwrite]
  rfl

/-- The first update that is not finite is refused, and with it all of them. -/
theorem Holds.add_of_not_isFinite (h : f.Holds disk c) (hc : c.IsFinite) {m : Metric}
    {before : List Metric} (hbefore : ∀ k ∈ before, k.value.isFinite = true)
    (hm : m.value.isFinite = false) (after : List Metric) :
    f.add disk (before ++ m :: after) = (.error m.refusal, disk) := by
  have hmerge := StoredRecord.represents.mergeAll_map_of_not_isFinite hc hbefore hm after
  have hof : StoredRecord.form.ofMetric = StoredRecord.ofMetric := rfl
  rw [hof] at hmerge
  rw [MetricsFile.add, h.read_eq]
  simp only [hmerge]

/-- The metric of a key. -/
theorem Holds.get_eq (h : f.Holds disk c) (hc : c.IsFinite) (key : Key) :
    f.get disk key = c.get key := by
  have hget := StoredRecord.represents.get_map hc key
  have hid : (c.get key).map (fun m => ⟨m.name, id m.value⟩) = c.get key := by
    cases c.get key <;> rfl
  rw [hid] at hget
  rw [MetricsFile.get, h.read_eq]
  exact hget

/-- The snapshot of a file is that of its contents. -/
theorem Holds.snapshot_eq (h : f.Holds disk c) : f.snapshot disk = .ok (Snapshot.ofMetrics c) := by
  rw [MetricsFile.snapshot, h.read_eq]
  exact congrArg Except.ok (StoredRecord.snapshot_map c)

/-- A snapshot of metrics becomes the content. -/
theorem Holds.restore (h : f.Holds disk c) {s : Snapshot} {ms : List Metric}
    (hparse : s.parse = .ok ms) :
    ∃ disk', f.restore disk s = (.ok (), disk') ∧ f.Holds disk' ms := by
  rcases h.write ms with ⟨disk', hwrite, hholds⟩
  refine ⟨disk', ?_, hholds⟩
  rw [MetricsFile.restore, RowForm.ofSnapshot, hparse]
  exact hwrite

/-- Anything else is refused and changes nothing. -/
theorem restore_of_error (f : MetricsFile) (disk : Disk) {s : Snapshot} {e : Failure}
    (hparse : s.parse = .error e) : f.restore disk s = (.error e, disk) := by
  rw [MetricsFile.restore, RowForm.ofSnapshot, hparse]
  rfl

end MetricsFile

end MetricRelay
