import MetricRelay.Proofs.Report
import MetricRelay.Proofs.Snapshot.Order

/-!
# The report page as a whole

A page is a fixed header, one row for each entry of its snapshot in order, and a fixed
footer.  Whatever the texts of an entry are, in a cell they are harmless: nothing in it is
markup, and an ampersand only stands where an entity starts.  The texts come back when the
entities are undone, so that a page tells all about the entries of its snapshot.

Main definitions:

- `Report.IsHarmless`: characters that can stand in a cell.
- `Report.IsPageOf`: a page whose cells show some entries.

Main results:

- `Report.isHarmless_escape`: every text is harmless in its cell.
- `Report.render_faithful`: the page of a snapshot.
-/

namespace MetricRelay

namespace Report

/-! ## Cells -/

/-- What stands in a cell for the five characters that are no text there. -/
def entities : List (List Char) :=
  ["&amp;".toList, "&lt;".toList, "&gt;".toList, "&quot;".toList, "&#39;".toList]

/-- No character is markup, and each ampersand starts an entity. -/
structure IsHarmless (cell : List Char) : Prop where
  no_markup : ∀ c ∈ cell, c ≠ '<' ∧ c ≠ '>' ∧ c ≠ '"' ∧ c ≠ '\x27'
  entity : ∀ before after, cell = before ++ '&' :: after → ∃ e ∈ entities, e <+: '&' :: after

/-- The characters of a cell are harmless and stand for a text. -/
structure Shows (cell : List Char) (text : String) : Prop where
  harmless : IsHarmless cell
  undone : unescape cell = text.toList

/-- A character outside the five is written as it is, and one of the five as an entity. -/
theorem escapeChar_eq (c : Char) :
    c ∉ special ∧ escapeChar c = [c] ∨ escapeChar c ∈ entities := by
  by_cases h : c ∈ special
  · have hall : special.all (fun d => entities.contains (escapeChar d)) = true := by decide
    exact Or.inr (by simpa using List.all_eq_true.1 hall c h)
  · exact Or.inl ⟨h, escapeChar_of_plain h⟩

/-- An entity holds no markup. -/
theorem no_markup_of_mem_entities {e : List Char} (he : e ∈ entities) :
    ∀ c ∈ e, c ≠ '<' ∧ c ≠ '>' ∧ c ≠ '"' ∧ c ≠ '\x27' := by
  have hall : (entities.all fun e => e.all fun c => c ≠ '<' ∧ c ≠ '>' ∧ c ≠ '"' ∧ c ≠ '\x27') =
      true := by decide
  intro c hc
  simpa using List.all_eq_true.1 (List.all_eq_true.1 hall e he) c hc

/-- An ampersand only stands at the start of an entity. -/
theorem eq_nil_of_mem_entities {e before after : List Char} (he : e ∈ entities)
    (h : e = before ++ '&' :: after) : before = [] := by
  have hall : (entities.all fun e => !(e.drop 1).contains '&') = true := by decide
  have hrest : '&' ∉ e.drop 1 := by simpa using List.all_eq_true.1 hall e he
  cases before with
  | nil => rfl
  | cons c before =>
    refine absurd ?_ hrest
    rw [h, List.cons_append, List.drop_succ_cons, List.drop_zero]
    exact List.mem_append_right before List.mem_cons_self

/-- A harmless cell stays so when a character is written in front of it. -/
theorem IsHarmless.escapeChar_append {cell : List Char} (h : IsHarmless cell) (c : Char) :
    IsHarmless (escapeChar c ++ cell) := by
  rcases escapeChar_eq c with ⟨hplain, hc⟩ | hentity
  · simp only [special, List.mem_cons, List.not_mem_nil, or_false, not_or] at hplain
    rw [hc, List.singleton_append]
    constructor
    · exact List.forall_mem_cons.2 ⟨hplain.2, h.no_markup⟩
    · intro before after heq
      cases before with
      | nil => exact absurd (List.cons.inj heq).1 hplain.1
      | cons d before => exact h.entity before after (List.cons.inj heq).2
  · constructor
    · exact List.forall_mem_append.2 ⟨no_markup_of_mem_entities hentity, h.no_markup⟩
    · intro before after heq
      -- The ampersand is the first character of the entity, or it stands in the cell.
      rcases List.append_eq_append_iff.1 heq with ⟨rest, hbefore, hcell⟩ | ⟨rest, hchar, hafter⟩
      · exact h.entity rest after hcell
      · cases rest with
        | nil => exact h.entity [] after hafter.symm
        | cons d rest =>
          rw [List.cons_append] at hafter
          obtain ⟨rfl, rfl⟩ := List.cons.inj hafter
          obtain rfl := eq_nil_of_mem_entities hentity hchar
          exact ⟨_, hentity, cell, by rw [hchar]; rfl⟩

/-- Every text is harmless in its cell. -/
theorem isHarmless_escape (text : String) : IsHarmless (escape text) := by
  unfold escape
  induction text.toList with
  | nil =>
    constructor
    · intro c hc
      cases hc
    · intro before after h
      exact absurd h (List.append_ne_nil_of_right_ne_nil before (by simp)).symm
  | cons c s ih =>
    rw [List.flatMap_cons]
    exact ih.escapeChar_append c

/-- A text is shown by its escaped form. -/
theorem shows_escape (text : String) : Shows (escape text) text :=
  ⟨isHarmless_escape text, unescape_escape text⟩

/-! ## Pages -/

/-- A row with given characters in its cells. -/
def rowOf (cells : List Char × List Char × List Char) : List Char :=
  "<tr><td>".toList ++ cells.1 ++ "</td><td>".toList ++ cells.2.1 ++ "</td><td>".toList ++
    cells.2.2 ++ "</td></tr>\n".toList

/-- The page has one row for each entry, in the order of types and then of names, between
the header and the footer.  Each cell shows its text. -/
structure IsPageOf (page : String) (entries : List (String × String × String)) : Prop where
  laid_out : ∃ cells : List (List Char × List Char × List Char),
    page.toList = header.toList ++ cells.flatMap rowOf ++ footer.toList ∧
      List.Forall₂ (fun row entry =>
        Shows row.1 entry.1 ∧ Shows row.2.1 entry.2.1 ∧ Shows row.2.2 entry.2.2) cells entries
  ordered : entries.Pairwise fun x y => Utf8.Before (x.1, x.2.1) (y.1, y.2.1)

/-- The cells of an entry. -/
def cellsOf (entry : String × String × String) : List Char × List Char × List Char :=
  (escape entry.1, escape entry.2.1, escape entry.2.2)

/-- A row has three cells. -/
theorem row_eq (entry : String × String × String) : row entry = rowOf (cellsOf entry) := by
  have hopen : "<tr><td>".toList = "<tr>".toList ++ "<td>".toList := rfl
  have hnext : "</td><td>".toList = "</td>".toList ++ "<td>".toList := rfl
  have hclose : "</td></tr>\n".toList = "</td>".toList ++ "</tr>\n".toList := rfl
  unfold row rowOf cell cellsOf
  rw [hopen, hnext, hclose]
  simp only [List.append_assoc]

/-- A report is a page of the rows of the snapshot. -/
theorem isPageOf_render (s : Snapshot) : IsPageOf (render s) s.triples where
  laid_out := by
    refine ⟨s.triples.map cellsOf, ?_, ?_⟩
    · rw [render, String.toList_ofList, List.flatMap_map]
      simp only [← row_eq]
    · rw [List.forall₂_map_left_iff]
      exact List.forall₂_same.2 fun entry _ =>
        ⟨shows_escape _, shows_escape _, shows_escape _⟩
  ordered := s.ordered_triples

/-- The page of any snapshot shows what look-ups find in it, in order and without markup from
outside.  Its rows are read back, so that snapshots with other entries have other pages. -/
theorem render_faithful (s : Snapshot) :
    IsPageOf (render s) s.triples ∧
      (∀ type name text, (type, name, text) ∈ s.triples ↔ s.lookup? type name = some text) ∧
      rows (render s).toList = s.triples ∧
      ∀ t : Snapshot, render s = render t ↔ s.triples = t.triples := by
  refine ⟨isPageOf_render s, fun type name text => Snapshot.mem_triples_iff, rows_render s,
    fun t => ⟨fun h => ?_, fun h => ?_⟩⟩
  · rw [← rows_render s, h, rows_render t]
  · rw [render, h, ← render]

end Report

end MetricRelay
