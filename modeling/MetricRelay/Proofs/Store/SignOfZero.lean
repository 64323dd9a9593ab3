import MetricRelay.Proofs.Store.Content

/-!
# The sign of zero

A row of a database does not tell the two zeros apart.  This file says how values,
metrics and snapshots look through such rows.

Main definitions:

- `Value.unsignZero`, `Metric.unsignZero`, `Snapshot.unsignZero`.

Main results:

- `Value.canonical_unsignZero`: the text of a value without the sign of zero.
- `Content.ofMetrics_unsignZero`: the snapshot of metrics without it.
-/

namespace MetricRelay

/-! ## Values -/

/-- A value as a row of a database shows it. -/
def Value.unsignZero : Value → Value
  | total n => .total n
  | reading x => .reading x.unsignZero

/-- A metric as a row of a database shows it. -/
def Metric.unsignZero (m : Metric) : Metric := ⟨m.name, m.value.unsignZero⟩

@[simp]
theorem Value.kind_unsignZero (v : Value) : v.unsignZero.kind = v.kind := by
  cases v <;> rfl

/-! ## Snapshots -/

namespace Dictionary

variable {β γ : Type}

/-- Replace each value by one that is made of it and its key. -/
def mapValues (f : String → β → γ) (d : Dictionary β) : Dictionary γ :=
  ⟨d.entries.map fun x => (x.1, f x.1 x.2), List.pairwise_map.2 d.sorted⟩

/-- Under a key there is what has become of the value there. -/
@[simp]
theorem find?_mapValues (f : String → β → γ) (d : Dictionary β) (key : String) :
    (d.mapValues f).find? key = (d.find? key).map (f key) := by
  unfold find? mapValues
  simp only
  induction d.entries with
  | nil => rfl
  | cons x r ih =>
    rw [List.map_cons, findIn?, findIn?]
    by_cases h : x.1 = key
    · rw [if_pos h, if_pos h, h]
      rfl
    · rw [if_neg h, if_neg h]
      exact ih

end Dictionary

namespace Snapshot

/-- The text of a value under a type, as a database gives it. -/
def unsignText (type text : String) : String :=
  if type = Kind.gauge.name ∧ text = "-0" then "0" else text

/-- A snapshot as a database gives it. -/
def unsignZero (s : Snapshot) : Snapshot :=
  s.mapValues fun type d => d.mapValues fun _ text => unsignText type text

/-- A text loses its sign before or after it is put. -/
theorem unsignZero_put (s : Snapshot) (type name text : String) :
    unsignZero (s.put type name text) = put (unsignZero s) type name (unsignText type text) := by
  apply Dictionary.ext_find?
  intro type'
  unfold put unsignZero
  rw [Dictionary.find?_mapValues, Dictionary.find?_insert, Dictionary.find?_insert,
    Dictionary.find?_mapValues, Dictionary.find?_mapValues]
  by_cases htype : type = type'
  · subst htype
    rw [if_pos rfl, if_pos rfl]
    apply congrArg some
    apply Dictionary.ext_find?
    intro name'
    rw [Dictionary.find?_mapValues, Dictionary.find?_insert, Dictionary.find?_insert]
    by_cases hname : name = name'
    · rw [if_pos hname, if_pos hname]
      rfl
    · rw [if_neg hname, if_neg hname]
      cases s.find? type with
      | none => rfl
      | some d => rw [Option.map_some, Option.getD_some, Option.getD_some, Dictionary.find?_mapValues]
  · rw [if_neg htype, if_neg htype]

end Snapshot

theorem Value.canonical_negative_zero : (reading (.zero true)).canonical = "-0" := by decide

/-- The text of a value as a database shows it. -/
theorem Value.canonical_unsignZero {v : Value} (h : v.isFinite = true) :
    v.unsignZero.canonical = Snapshot.unsignText v.kind.name v.canonical := by
  cases v with
  | total n =>
    have hne : Kind.counter.name ≠ Kind.gauge.name := by decide
    have hkind : ¬ ((total n).kind.name = Kind.gauge.name ∧ (total n).canonical = "-0") :=
      fun h => hne h.1
    rw [Snapshot.unsignText, if_neg hkind]
    rfl
  | reading x =>
    cases x with
    | nan => cases h
    | infinite negative => cases h
    | finite negative rank =>
      by_cases hzero : rank.val = 0
      · have hrank : rank = ⟨0, by decide⟩ := Fin.ext hzero
        subst hrank
        cases negative <;> decide
      · have hsame : (reading (.finite negative rank)).unsignZero =
            reading (.finite negative rank) := by
          simp only [unsignZero, Binary64.unsignZero, if_neg hzero]
        have hkind : ¬ ((reading (.finite negative rank)).kind.name = Kind.gauge.name ∧
            (reading (.finite negative rank)).canonical = "-0") := by
          rintro ⟨-, htext⟩
          rw [← canonical_negative_zero] at htext
          have hvalue := canonical_injective h (w := reading (.zero true)) rfl rfl htext
          simp only [reading.injEq, Binary64.zero, Binary64.finite.injEq] at hvalue
          exact hzero (congrArg Fin.val hvalue.2)
        rw [hsame, Snapshot.unsignText, if_neg hkind]

/-- The snapshot of a content as a database shows it. -/
theorem Content.ofMetrics_unsignZero {c : Content} (h : c.IsFinite) :
    Snapshot.ofMetrics (c.map Metric.unsignZero) = Snapshot.unsignZero (Snapshot.ofMetrics c) := by
  have hfold (s : Snapshot) : (c.map Metric.unsignZero).foldl Snapshot.putMetric
      (Snapshot.unsignZero s) = Snapshot.unsignZero (c.foldl Snapshot.putMetric s) := by
    induction c generalizing s with
    | nil => rfl
    | cons m c ih =>
      have hput : Snapshot.putMetric (Snapshot.unsignZero s) m.unsignZero =
          Snapshot.unsignZero (Snapshot.putMetric s m) := by
        have htext := Value.canonical_unsignZero (h m List.mem_cons_self)
        unfold Snapshot.putMetric
        rw [Snapshot.unsignZero_put]
        simp only [Metric.unsignZero, Metric.kind, Value.kind_unsignZero, htext]
      rw [List.map_cons, List.foldl_cons, List.foldl_cons, hput]
      exact ih (fun n hn => h n (List.mem_cons_of_mem _ hn)) _
  exact hfold Dictionary.empty

end MetricRelay
