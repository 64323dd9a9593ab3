import MetricRelay.Proofs.Json.Records
import MetricRelay.Proofs.Store.Content
import MetricRelay.Store.Record

/-!
# Records of a metrics file

The records in a metrics file are read back from it, whatever texts they hold:
names with quotes and line ends, and values of others that stand for nothing.
Records of metrics hold them faithfully.

Main results:

- `StoredRecord.readFile?_file`: the records in a file that was written.
- `StoredRecord.represents`: records of metrics take updates as metrics do.
-/

namespace MetricRelay

namespace StoredRecord

open Utf8 (encodeChars)
open Json (Reads Field IsBlank)

/-! ## Files -/

/-- A new line and its indentation are blanks. -/
theorem isBlank_newLine (indent : Nat) : IsBlank (newLine indent) := by
  intro c hc
  rw [newLine, List.mem_cons] at hc
  rcases hc with rfl | hc
  · right
    rfl
  · left
    exact (List.mem_replicate.1 hc).2

/-- A line of a record is read as its key and its text. -/
theorem reads_line (key value : String) :
    Reads Json.readNamedField? (line key value) (key, .scalar (.text (some value))) := by
  have hspace : IsBlank [' '] := by
    intro c hc
    exact Or.inl (List.mem_singleton.1 hc)
  have hvalue := (Json.reads_quote value).field.blanks Json.skipsBlanks_readField? hspace
  have hmember := (Json.reads_member key hvalue).blanks Json.skipsBlanks_readNamedField?
    (isBlank_newLine 4)
  have htext : line key value =
      newLine 4 ++ Json.member key ([' '] ++ Json.quote value) := by
    unfold line Json.member
    rw [List.append_assoc, List.append_assoc]
    rfl
  rw [htext]
  exact hmember

/-- Blanks before a record are skipped. -/
theorem skipsBlanks_read? : Json.SkipsBlanks read? := by
  intro b s hb
  rw [read?, read?, Json.skipsBlanks_readRecord? b s hb]

/-- A record does not start with a bracket that closes. -/
theorem refusesClosing_read? : Json.RefusesClosing read? := by
  intro s b r h
  rw [read?, Json.refusesClosing_readRecord? s b r h]

/-- The fields of a record, as a reader finds them. -/
def fields (r : StoredRecord) : List (String × Field) :=
  [("type", .scalar (.text (some r.type))), ("name", .scalar (.text (some r.name))),
    ("value", .scalar (.text (some r.value)))]

/-- A record is found in its fields. -/
theorem ofRecord?_fields (r : StoredRecord) : ofRecord? (.named r.fields) = some r := by
  simp [ofRecord?, fields, Json.Record.fields?, Json.Record.named?, Field.text?]

/-- A record is read back from its text. -/
theorem reads_json (r : StoredRecord) : Reads read? r.json r := by
  have hmembers : List.Forall₂ (Reads Json.readNamedField?)
      [line "type" r.type, line "name" r.name, line "value" r.value] r.fields :=
    .cons (reads_line _ _) (.cons (reads_line _ _) (.cons (reads_line _ _) .nil))
  have hobject := Json.reads_object hmembers (isBlank_newLine 2)
  have hrecord : Reads read? ('\x7b' :: Json.separated [',']
      [line "type" r.type, line "name" r.name, line "value" r.value] ++ newLine 2 ++ ['\x7d']) r := by
    intro s hs
    rw [read?, hobject s hs]
    simp only [ofRecord?_fields, Option.map_some]
  have htext : r.json = newLine 2 ++ ('\x7b' :: Json.separated [',']
      [line "type" r.type, line "name" r.name, line "value" r.value] ++ newLine 2 ++ ['\x7d']) := by
    simp only [json, List.append_assoc, List.cons_append, List.nil_append]
  rw [htext]
  exact hrecord.blanks skipsBlanks_read? (isBlank_newLine 2)

/-- The records in a file that was written are read back. -/
theorem readFile?_file (rs : List StoredRecord) : readFile? (file rs) = some rs := by
  have hitems : List.Forall₂ (Reads read?) (rs.map json) rs := by
    rw [List.forall₂_map_left_iff, List.forall₂_same]
    exact fun r _ => reads_json r
  cases rs with
  | nil =>
    have hlist := Json.reads_list refusesClosing_read? hitems Json.isBlank_nil
    exact Json.whole?_of_reads hlist
  | cons r rs =>
    have hlist := Json.reads_list refusesClosing_read? hitems (isBlank_newLine 0)
    have hwhole := Json.whole?_of_reads hlist
    have hne : (file (r :: rs)).isEmpty = false := by
      rw [file, fileChars, List.cons_append, List.cons_append,
        Json.encodeChars_cons_of_lt (by decide)]
      · rfl
      · exact List.cons_ne_nil r rs
    rw [readFile?, hne]
    exact hwhole

/-! ## Metrics -/

/-- Records of metrics hold them as they are. -/
theorem represents : form.Represents id where
  isOf_ofMetric key m := by
    have hkind : decide (m.kind.name = key.kind.name) = decide (m.kind = key.kind) := by
      cases m.kind <;> cases key.kind <;> decide
    have hkey : decide (m.key = key) = (decide (m.kind = key.kind) && decide (m.name = key.name)) := by
      rcases key with ⟨kind, name⟩
      simp [Metric.key]
    rw [hkey, ← hkind]
    rfl
  value_ofMetric m hm := Value.parse_canonical hm
  onto_shown _ _ := rfl
  kind_shown _ := rfl

/-- The snapshot of the records of metrics is that of the metrics. -/
theorem snapshot_map (c : Content) : snapshot (c.map ofMetric) = Snapshot.ofMetrics c := by
  unfold snapshot Snapshot.ofMetrics
  rw [List.foldl_map]
  rfl

end StoredRecord

end MetricRelay
