import MetricRelay.Proofs.Metric.Canonical
import MetricRelay.Proofs.Reading
import MetricRelay.Store.Rows

/-!
# What stores hold

Every store holds a list of metrics, whatever form it keeps them in.  An update
goes to the first metric of its key, or becomes a new one at the end.  This file
says what updates do to the list, and proves that rows of any faithful form do
the same.

Main results:

- `Metric.addTo_of_isFinite` and `Metric.addTo_of_not_isFinite`: an update is
  taken exactly if it is finite.
- `Content.find?_put`: what is found under each key after a metric is put in.
- `RowForm.Represents.mergeAll_map`: rows of a faithful form take updates as the
  list of metrics does, all of them or none.
-/

namespace MetricRelay

/-! ## One update -/

namespace Value

/-- The value under a key after `v` has come in: it is added to a total and
replaces anything else. -/
def onto : Value → Option Value → Value
  | total d, some (total n) => .total (n.add d)
  | v, _ => v

/-- An update leaves a metric with its own kind. -/
@[simp]
theorem kind_onto (v : Value) (kept : Option Value) : (v.onto kept).kind = v.kind := by
  unfold onto
  split <;> rfl

/-- A finite update leaves a finite value. -/
theorem isFinite_onto {v : Value} (h : v.isFinite = true) (kept : Option Value) :
    (v.onto kept).isFinite = true := by
  unfold onto
  split
  · rfl
  · exact h

/-- Values of one kind are merged. -/
theorem merge?_eq_onto {v kept : Value} (h : kept.kind = v.kind) :
    kept.merge? v = some (v.onto (some kept)) := by
  cases v with
  | total d =>
    cases kept with
    | total n => rfl
    | reading y => cases h
  | reading x =>
    cases kept with
    | total n => cases h
    | reading y => rfl

end Value

namespace Metric

/-- Why a metric that is not finite is refused. -/
def refusal (m : Metric) : Failure := .unreadable Kind.gauge.name m.value.canonical

/-- A finite update is taken. -/
theorem addTo_of_isFinite {m : Metric} (h : m.value.isFinite = true) (kept : Option Value)
    (hkind : ∀ v ∈ kept, v.kind = m.kind) : m.addTo kept = .ok ⟨m.name, m.value.onto kept⟩ := by
  have hfinite := Value.finite_of_isFinite h
  cases kept with
  | none =>
    rw [addTo, hfinite]
    cases hv : m.value <;> rfl
  | some v =>
    have hmerge := Value.merge?_eq_onto (hkind v rfl)
    simp only [addTo, update, hfinite, bind, Except.bind, hmerge]

/-- Anything else is refused, whatever is kept. -/
theorem addTo_of_not_isFinite {m : Metric} (h : m.value.isFinite = false) (kept : Option Value) :
    m.addTo kept = .error m.refusal := by
  have hfinite := Value.finite_of_not_isFinite h
  cases kept with
  | none =>
    rw [addTo, hfinite]
    rfl
  | some v => simp only [addTo, update, hfinite, bind, Except.bind, refusal]

end Metric

/-! ## Content -/

/-- The metrics in a store, in the order in which their keys came in. -/
abbrev Content := List Metric

namespace Content

/-- No value is anything but finite. -/
def IsFinite (c : Content) : Prop := ∀ m ∈ c, m.value.isFinite = true

/-- The value under a key. -/
def find? (c : Content) (key : Key) : Option Value :=
  (List.find? (fun m => m.key = key) c).map Metric.value

/-- The metric of a key. -/
def get (c : Content) (key : Key) : Outcome Metric :=
  match c.find? key with
  | some v => .ok ⟨key.name, v⟩
  | none => .error key.notFound

/-- Put a metric under its key. -/
def put (m : Metric) : Content → Content
  | [] => [m]
  | n :: c => if n.key = m.key then m :: c else n :: put m c

/-- What is under the key of an update after it has come in. -/
def next (c : Content) (m : Metric) : Metric := ⟨m.name, m.value.onto (c.find? m.key)⟩

/-- Add updates one after the other: what each key holds right after its update,
and the content at the end. -/
def add : List Metric → Content → List Metric × Content
  | [], c => ([], c)
  | m :: ms, c =>
    let rest := add ms (c.put (c.next m))
    (c.next m :: rest.1, rest.2)

/-- The first metric with a key is found. -/
theorem find?_cons (m : Metric) (c : Content) (key : Key) :
    find? (m :: c) key = if m.key = key then some m.value else find? c key := by
  unfold find?
  by_cases h : m.key = key
  · rw [List.find?_cons_of_pos (by simpa using h), if_pos h]
    rfl
  · rw [List.find?_cons_of_neg (by simpa using h), if_neg h]

/-- A value is found under its own kind. -/
theorem kind_of_find? {c : Content} {key : Key} {v : Value} (h : c.find? key = some v) :
    v.kind = key.kind := by
  induction c with
  | nil => cases h
  | cons m c ih =>
    rw [find?_cons] at h
    by_cases hm : m.key = key
    · rw [if_pos hm] at h
      cases h
      rw [← hm]
      rfl
    · rw [if_neg hm] at h
      exact ih h

@[simp]
theorem key_next (c : Content) (m : Metric) : (c.next m).key = m.key := by
  simp [next, Metric.key, Metric.kind]

theorem next_cons_of_eq {n m : Metric} (h : n.key = m.key) (c : Content) :
    next (n :: c) m = ⟨m.name, m.value.onto (some n.value)⟩ := by
  rw [next, find?_cons, if_pos h]

/-- A metric does not come on top of one with another key. -/
theorem next_cons_of_ne {n m : Metric} (h : n.key ≠ m.key) (c : Content) :
    next (n :: c) m = next c m := by
  rw [next, find?_cons, if_neg h]
  rfl

/-- A key holds what was put under it, and every other key what it held. -/
theorem find?_put (m : Metric) (c : Content) (key : Key) :
    (c.put m).find? key = if m.key = key then some m.value else c.find? key := by
  induction c with
  | nil => rw [put, find?_cons]
  | cons n c ih =>
    rw [put]
    by_cases hn : n.key = m.key
    · rw [if_pos hn, find?_cons, find?_cons]
      by_cases hm : m.key = key
      · rw [if_pos hm, if_pos hm]
      · rw [if_neg hm, if_neg hm, if_neg fun h => hm (hn.symm.trans h)]
    · rw [if_neg hn, find?_cons, ih, find?_cons]
      by_cases hm : m.key = key
      · rw [if_pos hm, if_pos hm, if_neg fun h => hn (h.trans hm.symm)]
      · rw [if_neg hm, if_neg hm]

/-- Contents stay finite with a finite metric. -/
theorem IsFinite.put {c : Content} (h : c.IsFinite) {m : Metric} (hm : m.value.isFinite = true) :
    (c.put m).IsFinite := by
  induction c with
  | nil =>
    intro x hx
    rw [List.mem_singleton.1 hx]
    exact hm
  | cons n c ih =>
    have hc : IsFinite c := fun x hx => h x (List.mem_cons_of_mem _ hx)
    rw [Content.put]
    by_cases hn : n.key = m.key
    · rw [if_pos hn]
      intro x hx
      rcases List.mem_cons.1 hx with rfl | hx
      · exact hm
      · exact hc x hx
    · rw [if_neg hn]
      intro x hx
      rcases List.mem_cons.1 hx with rfl | hx
      · exact h x List.mem_cons_self
      · exact ih hc x hx

theorem isFinite_next (c : Content) {m : Metric} (h : m.value.isFinite = true) :
    (c.next m).value.isFinite = true :=
  Value.isFinite_onto h _

/-- Contents stay finite with finite metrics. -/
theorem IsFinite.add {c : Content} (h : c.IsFinite) {ms : List Metric}
    (hms : ∀ m ∈ ms, m.value.isFinite = true) : (Content.add ms c).2.IsFinite := by
  induction ms generalizing c with
  | nil => exact h
  | cons m ms ih =>
    have hm := hms m List.mem_cons_self
    exact ih (h.put (c.isFinite_next hm)) fun n hn => hms n (List.mem_cons_of_mem _ hn)

end Content

/-! ## Rows -/

namespace RowForm

/-- Rows of a form hold metrics faithfully, and their values are seen through
`shown`, which makes no difference to an update. -/
structure Represents {ρ : Type} (form : RowForm ρ) (shown : Value → Value) : Prop where
  isOf_ofMetric : ∀ key m, form.isOf key (form.ofMetric m) = decide (m.key = key)
  value_ofMetric : ∀ m : Metric, m.value.isFinite = true →
    form.value m.key (form.ofMetric m) = .ok (shown m.value)
  onto_shown : ∀ v w : Value, v.onto (some (shown w)) = v.onto (some w)
  kind_shown : ∀ w : Value, (shown w).kind = w.kind

namespace Represents

variable {ρ : Type} {form : RowForm ρ} {shown : Value → Value} {c : Content} {m : Metric}

/-- A finite update of a row is that of its metric. -/
theorem merge_map (hform : form.Represents shown) (hc : c.IsFinite)
    (hm : m.value.isFinite = true) :
    form.merge m (c.map form.ofMetric) =
      .ok (c.next m, (c.put (c.next m)).map form.ofMetric) := by
  induction c with
  | nil =>
    have hadd := Metric.addTo_of_isFinite hm none fun v hv => by cases hv
    rw [List.map_nil, merge, hadd]
    rfl
  | cons n c ih =>
    rw [List.map_cons, merge, hform.isOf_ofMetric]
    by_cases hkey : n.key = m.key
    · have hvalue := hform.value_ofMetric n (hc n List.mem_cons_self)
      have hkind : (shown n.value).kind = m.kind :=
        (hform.kind_shown n.value).trans (congrArg Key.kind hkey)
      have hadd := Metric.addTo_of_isFinite hm (some (shown n.value)) fun v hv => by
        cases hv
        exact hkind
      rw [hkey] at hvalue
      rw [hform.onto_shown, ← Content.next_cons_of_eq hkey c] at hadd
      have hput : Content.put (Content.next (n :: c) m) (n :: c) =
          Content.next (n :: c) m :: c := by
        rw [Content.put, Content.key_next, if_pos hkey]
      simp only [hkey, decide_true, if_true, hvalue, bind, Except.bind, hadd, pure, Except.pure,
        hput, List.map_cons]
    · have hrest := ih fun x hx => hc x (List.mem_cons_of_mem _ hx)
      have hput : Content.put (Content.next c m) (n :: c) =
          n :: Content.put (Content.next c m) c := by
        rw [Content.put, Content.key_next, if_neg hkey]
      simp only [hkey, decide_false, Bool.false_eq_true, if_false, hrest, bind, Except.bind, pure,
        Except.pure, hput, List.map_cons, Content.next_cons_of_ne hkey]

/-- An update that is not finite is refused. -/
theorem merge_map_of_not_isFinite (hform : form.Represents shown) (hc : c.IsFinite)
    (hm : m.value.isFinite = false) :
    form.merge m (c.map form.ofMetric) = .error m.refusal := by
  induction c with
  | nil =>
    rw [List.map_nil, merge, Metric.addTo_of_not_isFinite hm]
    rfl
  | cons n c ih =>
    rw [List.map_cons, merge, hform.isOf_ofMetric]
    by_cases hkey : n.key = m.key
    · have hvalue := hform.value_ofMetric n (hc n List.mem_cons_self)
      rw [hkey] at hvalue
      simp only [hkey, decide_true, if_true, hvalue, bind, Except.bind,
        Metric.addTo_of_not_isFinite hm]
    · have hrest := ih fun x hx => hc x (List.mem_cons_of_mem _ hx)
      simp only [hkey, decide_false, Bool.false_eq_true, if_false, hrest, bind, Except.bind]

/-- Finite updates of rows are those of their metrics. -/
theorem mergeAll_map (hform : form.Represents shown) (hc : c.IsFinite) {ms : List Metric}
    (hms : ∀ m ∈ ms, m.value.isFinite = true) :
    form.mergeAll ms (c.map form.ofMetric) =
      .ok ((Content.add ms c).1, (Content.add ms c).2.map form.ofMetric) := by
  induction ms generalizing c with
  | nil => rfl
  | cons m ms ih =>
    have hm := hms m List.mem_cons_self
    have hrest := ih (hc.put (c.isFinite_next hm)) fun n hn => hms n (List.mem_cons_of_mem _ hn)
    simp only [mergeAll, hform.merge_map hc hm, bind, Except.bind, hrest, pure, Except.pure,
      Content.add]

/-- The first update that is not finite makes all of them fail. -/
theorem mergeAll_map_of_not_isFinite (hform : form.Represents shown) (hc : c.IsFinite)
    {before : List Metric} (hbefore : ∀ m ∈ before, m.value.isFinite = true)
    (hm : m.value.isFinite = false) (after : List Metric) :
    form.mergeAll (before ++ m :: after) (c.map form.ofMetric) = .error m.refusal := by
  have hrefused := hform.merge_map_of_not_isFinite (hc.add hbefore) hm
  rw [mergeAll_append, hform.mergeAll_map hc hbefore]
  simp only [bind, Except.bind, mergeAll, hrefused]

/-- The metric of a key, as rows show it. -/
theorem get_map (hform : form.Represents shown) (hc : c.IsFinite) (key : Key) :
    form.get key (c.map form.ofMetric) =
      (c.get key).map fun m => ⟨m.name, shown m.value⟩ := by
  induction c with
  | nil => rfl
  | cons n c ih =>
    have hrest := ih fun x hx => hc x (List.mem_cons_of_mem _ hx)
    unfold get Content.get at hrest ⊢
    rw [List.map_cons, Content.find?_cons]
    by_cases hkey : n.key = key
    · have hvalue := hform.value_ofMetric n (hc n List.mem_cons_self)
      have hof : form.isOf key (form.ofMetric n) = true := by
        rw [hform.isOf_ofMetric, decide_eq_true hkey]
      rw [hkey] at hvalue
      rw [List.find?_cons_of_pos hof, if_pos hkey]
      simp only [hvalue, Except.map]
    · have hof : ¬ form.isOf key (form.ofMetric n) = true := by
        rw [hform.isOf_ofMetric, decide_eq_false hkey]
        exact Bool.false_ne_true
      rw [List.find?_cons_of_neg hof, if_neg hkey]
      exact hrest

end Represents

end RowForm

/-! ## Snapshots -/

/-- The metrics of a snapshot are finite. -/
theorem Snapshot.isFinite_of_parse {s : Snapshot} {ms : List Metric} (h : s.parse = .ok ms) :
    Content.IsFinite ms := by
  have hmetric {kind : Kind} {name raw : String} {m : Metric}
      (hm : Metric.parse kind name raw = .ok m) : m.value.isFinite = true := by
    unfold Metric.parse at hm
    cases hv : Value.parse kind raw with
    | error e => simp [hv, Except.map] at hm
    | ok v =>
      simp only [hv, Except.map, Except.ok.injEq] at hm
      rw [← hm]
      exact (Value.isFinite_of_parse hv).1
  have htype {t : String × Dictionary String} {l : List Metric} (hl : parseType t = .ok l) :
      Content.IsFinite l := by
    unfold parseType at hl
    cases hk : Kind.parse t.1 with
    | error e => simp [hk, bind, Except.bind] at hl
    | ok kind =>
      simp only [hk, bind, Except.bind] at hl
      exact forall_of_mapM (fun _ _ => hmetric) hl
  unfold parse at h
  cases hlists : s.entries.mapM parseType with
  | error e => simp [hlists, bind, Except.bind] at h
  | ok lists =>
    simp only [hlists, bind, Except.bind, pure, Except.pure, Except.ok.injEq] at h
    intro m hm
    rw [← h] at hm
    rcases List.mem_flatten.1 hm with ⟨l, hl, hm⟩
    exact forall_of_mapM (P := Content.IsFinite) (fun _ _ => htype) hlists l hl m hm

end MetricRelay
