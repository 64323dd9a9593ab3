import MetricRelay.Report

/-!
# Reading the report

What stands on a report page can be read back from its text, as a browser does: a row
starts with its tags, a cell ends at the next tag, and entities stand for characters.
No text of a metric can look like a tag, so the rows of a page are the entries of its
snapshot, and each metric has one row.

Main definitions:

- `Report.rows`: the rows of a page.
- `Report.shown`: what a page shows as the value of a metric.

Main results:

- `Report.rows_render`: the rows of a page are the entries of its snapshot.
- `Report.shown_render`: what a page shows is what its snapshot finds.
-/

namespace MetricRelay

namespace Report

/-! ## Reading -/

/-- The text that is shown for characters with entities among them. -/
def unescape : List Char → List Char
  | '&' :: 'a' :: 'm' :: 'p' :: ';' :: r => '&' :: unescape r
  | '&' :: 'l' :: 't' :: ';' :: r => '<' :: unescape r
  | '&' :: 'g' :: 't' :: ';' :: r => '>' :: unescape r
  | '&' :: 'q' :: 'u' :: 'o' :: 't' :: ';' :: r => '"' :: unescape r
  | '&' :: '#' :: '3' :: '9' :: ';' :: r => '\x27' :: unescape r
  | c :: r => c :: unescape r
  | [] => []

/-- What follows a text, if something starts with it. -/
def after? : List Char → List Char → Option (List Char)
  | [], s => some s
  | c :: start, d :: s => if c = d then after? start s else none
  | _ :: _, [] => none

/-- The text of a cell, and what follows the cell. -/
def readCell? (s : List Char) : Option (String × List Char) := do
  let s ← after? "<td>".toList s
  let rest ← after? "</td>".toList (s.dropWhile (· ≠ '<'))
  return (String.ofList (unescape (s.takeWhile (· ≠ '<'))), rest)

/-- A row of three cells at the start of a text. -/
def readRow? (s : List Char) : Option (String × String × String) := do
  let s ← after? "<tr>".toList s
  let (type, s) ← readCell? s
  let (name, s) ← readCell? s
  let (value, s) ← readCell? s
  discard (after? "</tr>".toList s)
  return (type, name, value)

/-- The rows of a page, wherever they start. -/
def rows : List Char → List (String × String × String)
  | [] => []
  | c :: s =>
    match readRow? (c :: s) with
    | some x => x :: rows s
    | none => rows s

/-- What a page shows as the values of a metric: one for each of its rows. -/
def shown (page : String) (type name : String) : List String :=
  ((rows page.toList).filter fun x => x.1 = type ∧ x.2.1 = name).map (·.2.2)

/-! ## Cells -/

/-- The characters that are written as entities. -/
def special : List Char := ['&', '<', '>', '"', '\x27']

/-- A character that is not special stays as it is. -/
theorem escapeChar_of_plain {c : Char} (h : c ∉ special) : escapeChar c = [c] := by
  simp only [special, List.mem_cons, List.not_mem_nil, or_false, not_or] at h
  rcases h with ⟨hamp, hless, hmore, hquote, htick⟩
  rw [escapeChar, if_neg hamp, if_neg hless, if_neg hmore, if_neg hquote, if_neg htick]

/-- A character that starts no entity is shown as it is. -/
theorem unescape_cons {c : Char} (h : c ≠ '&') (r : List Char) :
    unescape (c :: r) = c :: unescape r := by
  rw [unescape]
  all_goals
    intros
    exact absurd ‹_› h

/-- A character is shown for its entity. -/
theorem unescape_escapeChar (c : Char) (r : List Char) :
    unescape (escapeChar c ++ r) = c :: unescape r := by
  by_cases hspecial : c ∈ special
  · simp only [special, List.mem_cons, List.not_mem_nil, or_false] at hspecial
    rcases hspecial with rfl | rfl | rfl | rfl | rfl <;> rfl
  · have hamp : c ≠ '&' := by
      rintro rfl
      exact hspecial (by decide)
    rw [escapeChar_of_plain hspecial]
    exact unescape_cons hamp r

/-- An escaped text is shown as the text. -/
theorem unescape_escape (s : String) : unescape (escape s) = s.toList := by
  unfold escape
  induction s.toList with
  | nil => rfl
  | cons c s ih => rw [List.flatMap_cons, unescape_escapeChar, ih]

/-- No text has the start of a tag in it. -/
theorem ne_of_mem_escape {s : String} {c : Char} (h : c ∈ escape s) : c ≠ '<' := by
  rcases List.mem_flatMap.1 h with ⟨d, -, hd⟩
  by_cases hspecial : d ∈ special
  · have hall : special.all (fun d => (escapeChar d).all fun c => c ≠ '<') = true := by decide
    have hd' := List.all_eq_true.1 (List.all_eq_true.1 hall d hspecial) c hd
    simpa using hd'
  · rw [escapeChar_of_plain hspecial, List.mem_singleton] at hd
    rintro rfl
    exact hspecial (hd ▸ by decide)

/-- What stands behind a start is found behind it. -/
theorem after?_append (start s : List Char) : after? start (start ++ s) = some s := by
  induction start with
  | nil => rfl
  | cons c start ih => rw [List.cons_append, after?, if_pos rfl, ih]

/-- A cell is read back, with what follows it. -/
theorem readCell?_cell (text : String) (s : List Char) :
    readCell? (cell text ++ s) = some (text, s) := by
  have hplain : ∀ c ∈ escape text, (decide (c ≠ '<')) = true := fun c hc =>
    decide_eq_true (ne_of_mem_escape hc)
  have htake : (escape text ++ ("</td>".toList ++ s)).takeWhile (· ≠ '<') = escape text := by
    rw [List.takeWhile_append_of_pos hplain]
    exact List.append_nil _
  have hdrop : (escape text ++ ("</td>".toList ++ s)).dropWhile (· ≠ '<') =
      "</td>".toList ++ s := by
    rw [List.dropWhile_append_of_pos hplain]
    rfl
  unfold readCell? cell
  rw [List.append_assoc, List.append_assoc, after?_append]
  simp only [bind, Option.bind, htake, hdrop, after?_append, unescape_escape, String.ofList_toList]
  rfl

/-- A row is read back, with anything behind it. -/
theorem readRow?_row (x : String × String × String) (s : List Char) :
    readRow? (row x ++ s) = some x := by
  have hend : "</tr>\n".toList = "</tr>".toList ++ ['\n'] := rfl
  unfold readRow? row
  simp only [List.append_assoc, after?_append, readCell?_cell, bind, Option.bind, hend]
  rfl

/-! ## Rows -/

/-- Whether two texts differ before either of them ends. -/
def differ : List Char → List Char → Bool
  | c :: s, d :: t => c ≠ d || differ s t
  | _, _ => false

/-- A text that differs from a start does not have it, whatever follows. -/
theorem after?_of_differ {start s : List Char} (h : differ start s = true) (t : List Char) :
    after? start (s ++ t) = none := by
  induction start generalizing s with
  | nil => cases h
  | cons c start ih =>
    cases s with
    | nil => cases h
    | cons d s =>
      rw [differ, Bool.or_eq_true] at h
      rw [List.cons_append, after?]
      by_cases hcd : c = d
      · rw [if_pos hcd]
        exact ih (h.resolve_left (by simp [hcd]))
      · rw [if_neg hcd]

/-- A start of two parts is looked for one part after the other. -/
theorem after?_append_start (start start' s : List Char) :
    after? (start ++ start') s = (after? start s).bind (after? start') := by
  induction start generalizing s with
  | nil => rfl
  | cons c start ih =>
    cases s with
    | nil => rfl
    | cons d s =>
      rw [List.cons_append, after?, after?]
      split
      · exact ih s
      · rfl

/-- What every row starts with. -/
def rowStart : List Char := "<tr><td>".toList

/-- No row is read where the text differs from the start of one. -/
theorem readRow?_of_differ {s : List Char} (h : differ rowStart s = true) (t : List Char) :
    readRow? (s ++ t) = none := by
  have hstart := after?_of_differ h t
  have hparts : rowStart = "<tr>".toList ++ "<td>".toList := rfl
  rw [hparts, after?_append_start] at hstart
  unfold readRow?
  cases hrow : after? "<tr>".toList (s ++ t) with
  | none => rfl
  | some rest =>
    rw [hrow, Option.bind_some] at hstart
    simp only [readCell?, hstart, bind, Option.bind]

/-- Whether no row starts within a text, whatever follows it. -/
def isRowless : List Char → Bool
  | [] => true
  | c :: s => differ rowStart (c :: s) && isRowless s

/-- A text in which no row starts is passed over. -/
theorem rows_append_of_isRowless {s : List Char} (h : isRowless s = true) (t : List Char) :
    rows (s ++ t) = rows t := by
  induction s with
  | nil => rfl
  | cons c s ih =>
    rw [isRowless, Bool.and_eq_true] at h
    have hread := readRow?_of_differ h.1 t
    rw [List.cons_append] at hread ⊢
    rw [rows, hread]
    exact ih h.2

/-- A text of a metric cannot start a row. -/
theorem isRowless_escape (text : String) : isRowless (escape text) = true := by
  have hplain : ∀ c ∈ escape text, c ≠ '<' := fun c hc => ne_of_mem_escape hc
  generalize escape text = s at hplain
  induction s with
  | nil => rfl
  | cons c s ih =>
    have hc := hplain c List.mem_cons_self
    have hstart : differ rowStart (c :: s) = true := by
      show (decide ('<' ≠ c) || differ "tr><td>".toList s) = true
      rw [decide_eq_true (Ne.symm hc), Bool.true_or]
    rw [isRowless, hstart, Bool.true_and]
    exact ih fun d hd => hplain d (List.mem_cons_of_mem _ hd)

/-- No row starts in a cell. -/
theorem rows_cell (text : String) (t : List Char) : rows (cell text ++ t) = rows t := by
  have hopen : isRowless "<td>".toList = true := by decide
  have hclose : isRowless "</td>".toList = true := by decide
  unfold cell
  rw [List.append_assoc, List.append_assoc, rows_append_of_isRowless hopen,
    rows_append_of_isRowless (isRowless_escape text), rows_append_of_isRowless hclose]

/-- A row is found, and then those after it. -/
theorem rows_row (x : String × String × String) (t : List Char) :
    rows (row x ++ t) = x :: rows t := by
  have hopen : isRowless "tr>".toList = true := by decide
  have hclose : isRowless "</tr>\n".toList = true := by decide
  have hrest : row x ++ t = '<' :: ("tr>".toList ++ (cell x.1 ++ (cell x.2.1 ++ (cell x.2.2 ++
      ("</tr>\n".toList ++ t))))) := by
    unfold row
    simp only [List.append_assoc]
    rfl
  have hread := readRow?_row x t
  -- A row is found where it starts, and nothing within it starts another one.
  rw [hrest] at hread ⊢
  rw [rows, hread]
  simp only
  rw [rows_append_of_isRowless hopen, rows_cell, rows_cell, rows_cell,
    rows_append_of_isRowless hclose]

/-- The rows of a page are the entries of its snapshot, in their order. -/
theorem rows_render (s : Snapshot) : rows (render s).toList = s.triples := by
  have hheader : isRowless header.toList = true := by decide +kernel
  have hfooter : isRowless footer.toList = true := by decide
  have hrows (l : List (String × String × String)) (t : List Char) :
      rows (l.flatMap row ++ t) = l ++ rows t := by
    induction l with
    | nil => rfl
    | cons x l ih => rw [List.flatMap_cons, List.append_assoc, rows_row, ih, List.cons_append]
  have hend : rows footer.toList = [] := by
    rw [← List.append_nil footer.toList, rows_append_of_isRowless hfooter]
    rfl
  rw [render, String.toList_ofList, List.append_assoc, rows_append_of_isRowless hheader, hrows,
    hend, List.append_nil]

/-! ## One metric -/

end Report

/-- A sorted dictionary has one entry for each of its keys. -/
theorem Dictionary.filter_entries {β : Type} (d : Dictionary β) (key : String) :
    d.entries.filter (fun x => x.1 = key) = ((d.find? key).map fun v => (key, v)).toList := by
  rcases d with ⟨entries, sorted⟩
  show entries.filter _ = ((findIn? key entries).map _).toList
  induction entries with
  | nil => rfl
  | cons x r ih =>
    rcases List.pairwise_cons.1 sorted with ⟨hx, hr⟩
    rcases x with ⟨k, v⟩
    rw [findIn?]
    by_cases hk : k = key
    · subst hk
      have hrest : r.filter (fun x => x.1 = k) = [] := by
        refine List.filter_eq_nil_iff.2 fun y hy => ?_
        have hlt : k < y.1 := hx y hy
        have hne : y.1 ≠ k := fun heq => String.lt_irrefl k (heq ▸ hlt)
        simpa using hne
      rw [List.filter_cons_of_pos (by simp), hrest, if_pos rfl]
      rfl
    · rw [List.filter_cons_of_neg (by simpa using hk), if_neg hk]
      exact ih hr

namespace Report

/-- Of the entries under one type only those of a name are for it. -/
theorem filter_entry (t : String × Dictionary String) (type name : String) :
    ((t.2.entries.map fun n => (t.1, n.1, n.2)).filter fun x => x.1 = type ∧ x.2.1 = name).map
        (·.2.2) =
      if t.1 = type then (t.2.find? name).toList else [] := by
  rw [List.filter_map, List.map_map]
  by_cases htype : t.1 = type
  · have hkeep : t.2.entries.filter ((fun x : String × String × String =>
        decide (x.1 = type ∧ x.2.1 = name)) ∘ fun n => (t.1, n.1, n.2)) =
        t.2.entries.filter fun n => n.1 = name := by
      refine List.filter_congr fun n _ => ?_
      simp [htype]
    rw [hkeep, t.2.filter_entries, if_pos htype]
    cases t.2.find? name <;> rfl
  · have hdrop : t.2.entries.filter ((fun x : String × String × String =>
        decide (x.1 = type ∧ x.2.1 = name)) ∘ fun n => (t.1, n.1, n.2)) = [] := by
      refine List.filter_eq_nil_iff.2 fun n _ => ?_
      simp [htype]
    rw [hdrop, if_neg htype]
    rfl

/-- A page has one row for each metric that its snapshot finds, with its text. -/
theorem shown_render (s : Snapshot) (type name : String) :
    shown (render s) type name = (s.lookup? type name).toList := by
  have hflat (l : List (String × Dictionary String)) :
      (l.flatMap fun t => if t.1 = type then (t.2.find? name).toList else []) =
        (l.filter fun t => t.1 = type).flatMap fun t => (t.2.find? name).toList := by
    induction l with
    | nil => rfl
    | cons t l ih =>
      rw [List.flatMap_cons, ih]
      by_cases htype : t.1 = type
      · rw [if_pos htype, List.filter_cons_of_pos (by simpa using htype), List.flatMap_cons]
      · rw [if_neg htype, List.filter_cons_of_neg (by simpa using htype), List.nil_append]
  unfold shown
  rw [rows_render, Snapshot.triples, List.filter_flatMap, List.map_flatMap]
  simp only [filter_entry]
  rw [hflat, s.filter_entries, Snapshot.lookup?]
  cases s.find? type with
  | none => rfl
  | some d => exact List.flatMap_singleton _ _

end Report

end MetricRelay
