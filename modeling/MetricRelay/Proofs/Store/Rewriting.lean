import MetricRelay.Proofs.Store.File
import MetricRelay.Proofs.Store.Running

/-!
# What updates change in a metrics file

A metrics file is written as a whole whenever updates come in, and it may hold what
others wrote: records of types that there are not, values that stand for nothing, and
several records of one key.  Updates nevertheless change the first record of each of
their keys and nothing else, and add a record for each key that had none.

Main definitions:

- `StoredRecord.place?`: where the first record of a key is.
- `StoredRecord.Rewrites`: what updates make of some records.

Main results:

- `RowForm.merge_cases`: one update changes one row in place or adds one at the end.
- `StoredRecord.rewrites_of_mergeAll`: what updates make of any records.
- `MetricsFile.rewrites`: what updates make of a metrics file.
-/

namespace MetricRelay

/-! ## One update -/

/-- An update that is taken is finite. -/
theorem Metric.addTo_eq_ok {m n : Metric} {kept : Option Value} (h : m.addTo kept = .ok n)
    (hkind : ∀ v ∈ kept, v.kind = m.kind) :
    m.value.isFinite = true ∧ n = ⟨m.name, m.value.onto kept⟩ := by
  cases hm : m.value.isFinite with
  | false =>
    rw [addTo_of_not_isFinite hm] at h
    cases h
  | true =>
    rw [addTo_of_isFinite hm kept hkind] at h
    exact ⟨rfl, (Except.ok.inj h).symm⟩

namespace RowForm

variable {ρ : Type} {form : RowForm ρ} {m next : Metric} {rows rows' : List ρ}

/-- An update that is taken changes the first row of its key in place, or adds one at
the end if there was none. -/
theorem merge_cases (h : form.merge m rows = .ok (next, rows')) :
    (∃ i row v, rows.findIdx? (form.isOf m.key) = some i ∧ rows[i]? = some row ∧
      form.value m.key row = .ok v ∧ m.addTo (some v) = .ok next ∧
      rows' = rows.set i (form.ofMetric next)) ∨
    (rows.findIdx? (form.isOf m.key) = none ∧ m.addTo none = .ok next ∧
      rows' = rows ++ [form.ofMetric next]) := by
  induction rows generalizing rows' with
  | nil =>
    rw [merge] at h
    cases hadd : m.addTo none with
    | error e => simp [hadd, bind, Except.bind] at h
    | ok n =>
      simp only [hadd, bind, Except.bind, pure, Except.pure, Except.ok.injEq, Prod.mk.injEq] at h
      rcases h with ⟨rfl, rfl⟩
      exact .inr ⟨rfl, rfl, rfl⟩
  | cons row rows ih =>
    rw [merge] at h
    cases hof : form.isOf m.key row with
    | true =>
      rw [hof, if_pos rfl] at h
      cases hvalue : form.value m.key row with
      | error e => simp [hvalue, bind, Except.bind] at h
      | ok v =>
        cases hadd : m.addTo (some v) with
        | error e => simp [hvalue, hadd, bind, Except.bind] at h
        | ok n =>
          simp only [hvalue, hadd, bind, Except.bind, pure, Except.pure, Except.ok.injEq,
            Prod.mk.injEq] at h
          rcases h with ⟨rfl, rfl⟩
          refine .inl ⟨0, row, v, ?_, rfl, hvalue, hadd, rfl⟩
          rw [List.findIdx?_cons, hof, if_pos rfl]
    | false =>
      rw [hof, if_neg Bool.false_ne_true] at h
      cases hmerge : form.merge m rows with
      | error e => simp [hmerge, bind, Except.bind] at h
      | ok x =>
        simp only [hmerge, bind, Except.bind, pure, Except.pure, Except.ok.injEq,
          Prod.mk.injEq] at h
        rcases h with ⟨rfl, rfl⟩
        rcases ih hmerge with ⟨i, r, v, hfind, hrow, hvalue, hadd, hset⟩ | ⟨hfind, hadd, happend⟩
        · refine .inl ⟨i + 1, r, v, ?_, hrow, hvalue, hadd, ?_⟩
          · rw [List.findIdx?_cons, hof, if_neg Bool.false_ne_true, hfind]
            rfl
          · rw [hset]
            rfl
        · refine .inr ⟨?_, hadd, ?_⟩
          · rw [List.findIdx?_cons, hof, if_neg Bool.false_ne_true, hfind]
            rfl
          · rw [happend]
            rfl

end RowForm

namespace StoredRecord

/-! ## Places -/

/-- Where the first record of a key is, if there is one. -/
def place? (key : Key) (rs : List StoredRecord) : Option Nat := rs.findIdx? (isOf key)

section

variable {key : Key} {rs : List StoredRecord} {i : Nat}

theorem isOf_ofMetric (key : Key) (m : Metric) : isOf key (ofMetric m) = decide (m.key = key) :=
  represents.isOf_ofMetric key m

/-- A record is of one key at most. -/
theorem isOf_eq_decide {r : StoredRecord} (h : r.isOf key = true) (key' : Key) :
    r.isOf key' = decide (key = key') := by
  simp only [isOf, Bool.and_eq_true, decide_eq_true_eq] at h
  rw [Bool.eq_iff_iff, decide_eq_true_eq, isOf, Bool.and_eq_true, decide_eq_true_eq,
    decide_eq_true_eq, h.1, h.2]
  constructor
  · rintro ⟨hkind, hname⟩
    rcases key with ⟨kind, name⟩
    rcases key' with ⟨kind', name'⟩
    obtain rfl : kind = kind' := Kind.name_injective hkind
    obtain rfl : name = name' := hname
    rfl
  · rintro rfl
    exact ⟨rfl, rfl⟩

/-- There is a record of a key in the place of that key. -/
theorem exists_of_place? (h : place? key rs = some i) :
    ∃ r, rs[i]? = some r ∧ r.isOf key = true := by
  rcases List.findIdx?_eq_some_iff_getElem.1 h with ⟨hi, hof, -⟩
  exact ⟨rs[i], List.getElem?_eq_getElem hi, hof⟩

/-- Two keys have two places. -/
theorem eq_of_place? {key' : Key} (h : place? key rs = some i) (h' : place? key' rs = some i) :
    key = key' := by
  rcases exists_of_place? h with ⟨r, hr, hof⟩
  rcases exists_of_place? h' with ⟨r', hr', hof'⟩
  rw [hr] at hr'
  cases hr'
  rw [isOf_eq_decide hof] at hof'
  exact of_decide_eq_true hof'

/-- A record that takes the place of one of its key moves no other. -/
theorem place?_set {n : Metric} (h : place? n.key rs = some i) (key : Key) :
    place? key (rs.set i (ofMetric n)) = place? key rs := by
  have hplace (rs : List StoredRecord) : place? key rs = (rs.map (isOf key)).findIdx? id := by
    rw [List.findIdx?_map]
    rfl
  rcases exists_of_place? h with ⟨r, hr, hof⟩
  have hsame : isOf key (ofMetric n) = isOf key r := by
    rw [isOf_ofMetric, isOf_eq_decide hof]
  have hitem : (rs.map (isOf key))[i]? = some (isOf key r) := by
    rw [List.getElem?_map, hr]
    rfl
  rw [hplace, hplace, List.map_set, hsame]
  rcases List.getElem?_eq_some_iff.1 hitem with ⟨hi, hget⟩
  rw [← hget, List.set_getElem_self]

/-- A record at the end is the first of its key if there was none. -/
theorem place?_append (n : Metric) (key : Key) :
    place? key (rs ++ [ofMetric n]) =
      (place? key rs).or (if n.key = key then some rs.length else none) := by
  unfold place?
  rw [List.findIdx?_append, List.findIdx?_singleton, isOf_ofMetric]
  by_cases hkey : n.key = key
  · simp [hkey]
  · simp [hkey]

end

/-! ## Several updates -/

/-- The keys of some updates that no record has, in the order in which they first come. -/
def newKeys (ms : List Metric) (rs : List StoredRecord) : List Key :=
  ((ms.map Metric.key).filter fun key => (place? key rs).isNone).eraseDups

/-- The record of a key after some values have come in to what was kept. -/
def IsUpdated (key : Key) (ms : List Metric) (kept : Option Value) (r : StoredRecord) : Prop :=
  ∃ v, Value.ontoAll (Metric.valuesOf key ms) kept = some v ∧ r = ofMetric ⟨key.name, v⟩

/-- Updates change the first record of each of their keys, to what its value and the
updates of the key come to.  Every other record is kept where it is.  At the end there is
one record for each key that had none. -/
structure Rewrites (ms : List Metric) (rs rs' : List StoredRecord) : Prop where
  first : ∀ key ∈ ms.map Metric.key, ∀ i, place? key rs = some i → ∃ r r' v,
    rs[i]? = some r ∧ Value.parse key.kind r.value = .ok v ∧ rs'[i]? = some r' ∧
      IsUpdated key ms (some v) r'
  kept : ∀ i < rs.length, (∀ key ∈ ms.map Metric.key, place? key rs ≠ some i) → rs'[i]? = rs[i]?
  new : List.Forall₂ (fun key r => IsUpdated key ms none r) (newKeys ms rs) (rs'.drop rs.length)

section

variable {m : Metric} {ms : List Metric} {rs rs' : List StoredRecord} {i : Nat}

/-- Without updates the list stays as it is. -/
theorem rewrites_nil (rs : List StoredRecord) : Rewrites [] rs rs where
  first key hkey := by cases hkey
  kept i _ _ := rfl
  new := by
    rw [List.drop_length]
    exact .nil

/-- The first record of a key holds a metric: it comes to what the updates make of it,
also if there are none of its key. -/
theorem Rewrites.ofMetric (h : Rewrites ms rs rs') {n : Metric} (hn : n.value.isFinite = true)
    (hplace : place? n.key rs = some i) (hrow : rs[i]? = some (ofMetric n)) :
    ∃ r', rs'[i]? = some r' ∧ IsUpdated n.key ms (some n.value) r' := by
  by_cases hkey : n.key ∈ ms.map Metric.key
  · rcases h.first n.key hkey i hplace with ⟨r, r', v, hr, hparse, hr', hupdated⟩
    rw [hrow] at hr
    cases hr
    have hvalue : Value.parse n.key.kind (StoredRecord.ofMetric n).value = .ok n.value :=
      Value.parse_canonical hn
    rw [hvalue] at hparse
    cases hparse
    exact ⟨r', hr', hupdated⟩
  · have hlength : i < rs.length := by
      rcases List.getElem?_eq_some_iff.1 hrow with ⟨hi, -⟩
      exact hi
    have hkept := h.kept i hlength fun key hmem hother =>
      hkey (eq_of_place? hother hplace ▸ hmem)
    have hvalues : Metric.valuesOf n.key ms = [] := by
      unfold Metric.valuesOf
      rw [List.map_eq_nil_iff, List.filter_eq_nil_iff]
      intro k hk hof
      exact hkey (by simpa using ⟨k, hk, by simpa using hof⟩)
    refine ⟨StoredRecord.ofMetric n, hkept.trans hrow, n.value, ?_, rfl⟩
    rw [hvalues]
    rfl

/-- An update of the key comes first, and the others come on top of it. -/
theorem IsUpdated.cons {kept : Option Value} {r : StoredRecord}
    (h : IsUpdated m.key ms (some (m.value.onto kept)) r) : IsUpdated m.key (m :: ms) kept r := by
  rcases h with ⟨v, hv, hr⟩
  refine ⟨v, ?_, hr⟩
  rw [Metric.valuesOf_cons, if_pos rfl, Value.ontoAll_cons, hv]

/-- An update of another key makes no difference to a record. -/
theorem IsUpdated.cons_of_ne {key : Key} {kept : Option Value} {r : StoredRecord}
    (h : IsUpdated key ms kept r) (hne : m.key ≠ key) : IsUpdated key (m :: ms) kept r := by
  rcases h with ⟨v, hv, hr⟩
  refine ⟨v, ?_, hr⟩
  rw [Metric.valuesOf_cons, if_neg hne, hv]

/-- A new key had no place. -/
theorem place?_of_mem_newKeys {key : Key} (h : key ∈ newKeys ms rs) : place? key rs = none := by
  have hmem := (List.mem_filter.1 (List.mem_eraseDups.1 h)).2
  exact Option.isNone_iff_eq_none.1 hmem

/-- No record has to be added for a key that has one. -/
theorem newKeys_cons_of_set {n : Metric} (hkey : n.key = m.key)
    (hplace : place? m.key rs = some i) :
    newKeys (m :: ms) rs = newKeys ms (rs.set i (StoredRecord.ofMetric n)) := by
  have hplaces := place?_set (hkey.symm ▸ hplace)
  unfold newKeys
  rw [List.map_cons, List.filter_cons_of_neg (by rw [hplace]; exact Bool.false_ne_true)]
  simp only [hplaces]

/-- A key that had no record comes first, and has one from then on. -/
theorem newKeys_cons_of_append {n : Metric} (hkey : n.key = m.key)
    (hplace : place? m.key rs = none) :
    newKeys (m :: ms) rs = m.key :: newKeys ms (rs ++ [StoredRecord.ofMetric n]) := by
  unfold newKeys
  rw [List.map_cons, List.filter_cons_of_pos (by rw [hplace]; rfl), List.eraseDups_cons,
    List.filter_filter]
  congr 2
  refine List.filter_congr fun key _ => ?_
  rw [place?_append, hkey]
  by_cases hsame : m.key = key
  · subst hsame
    simp [hplace]
  · cases hbefore : place? key rs <;> simp [hsame, Ne.symm hsame]

/-- The first update changes the record of its key, and the others what is left. -/
theorem Rewrites.cons_of_set {v : Value} {r : StoredRecord} (hm : m.value.isFinite = true)
    (hplace : place? m.key rs = some i) (hrow : rs[i]? = some r)
    (hparse : Value.parse m.key.kind r.value = .ok v)
    (h : Rewrites ms (rs.set i (StoredRecord.ofMetric ⟨m.name, m.value.onto (some v)⟩)) rs') :
    Rewrites (m :: ms) rs rs' := by
  have hkey : (⟨m.name, m.value.onto (some v)⟩ : Metric).key = m.key := by
    simp [Metric.key, Metric.kind]
  generalize hnext : (⟨m.name, m.value.onto (some v)⟩ : Metric) = n at h hkey
  have hn : n.value.isFinite = true := by
    rw [← hnext]
    exact Value.isFinite_onto hm _
  have hnew : newKeys (m :: ms) rs = newKeys ms (rs.set i (StoredRecord.ofMetric n)) :=
    newKeys_cons_of_set hkey hplace
  rw [← hkey] at hplace
  have hplaces := place?_set hplace
  have hlength : i < rs.length := (List.getElem?_eq_some_iff.1 hrow).1
  constructor
  · intro key hmem j hj
    by_cases hsame : m.key = key
    · subst hsame
      rw [← hkey, hplace] at hj
      cases hj
      have hset : (rs.set i (StoredRecord.ofMetric n))[i]? = some (StoredRecord.ofMetric n) :=
        List.getElem?_set_self hlength
      rcases h.ofMetric hn ((hplaces n.key).trans hplace) hset with ⟨r', hr', hupdated⟩
      rw [hkey, ← hnext] at hupdated
      exact ⟨r, r', v, hrow, hparse, hr', hupdated.cons⟩
    · have hne : i ≠ j := by
        rintro rfl
        exact hsame (hkey.symm.trans (eq_of_place? hplace hj))
      have hrest : key ∈ ms.map Metric.key :=
        (List.mem_cons.1 hmem).resolve_left fun heq => hsame heq.symm
      rcases h.first key hrest j ((hplaces key).trans hj) with ⟨q, r', w, hq, hw, hr', hupdated⟩
      rw [List.getElem?_set_ne hne] at hq
      exact ⟨q, r', w, hq, hw, hr', hupdated.cons_of_ne hsame⟩
  · intro j hj hnot
    have hne : i ≠ j := by
      rintro rfl
      exact hnot m.key List.mem_cons_self (hkey ▸ hplace)
    have hkept := h.kept j (by rwa [List.length_set]) fun key hmem hother =>
      hnot key (List.mem_cons_of_mem _ hmem) ((hplaces key).symm.trans hother)
    rwa [List.getElem?_set_ne hne] at hkept
  · have hrest := h.new
    rw [← hnew, List.length_set] at hrest
    have hnone : ∀ key ∈ newKeys (m :: ms) rs, place? key rs = none := fun key =>
      place?_of_mem_newKeys
    refine ((List.forall₂_and_left _ _).2 ⟨hnone, hrest⟩).imp fun key q hq => ?_
    refine hq.2.cons_of_ne fun hsame => ?_
    rw [← hsame, ← hkey, hplace] at hq
    cases hq.1

/-- The first update adds a record, and the others change what is left. -/
theorem Rewrites.cons_of_append (hm : m.value.isFinite = true) (hplace : place? m.key rs = none)
    (h : Rewrites ms (rs ++ [StoredRecord.ofMetric ⟨m.name, m.value.onto none⟩]) rs') :
    Rewrites (m :: ms) rs rs' := by
  have hkey : (⟨m.name, m.value.onto none⟩ : Metric).key = m.key := by
    simp [Metric.key, Metric.kind]
  generalize hnext : (⟨m.name, m.value.onto none⟩ : Metric) = n at h hkey
  have hn : n.value.isFinite = true := by
    rw [← hnext]
    exact Value.isFinite_onto hm _
  have hplaces (key : Key) : place? key (rs ++ [StoredRecord.ofMetric n]) =
      (place? key rs).or (if m.key = key then some rs.length else none) := by
    rw [place?_append, hkey]
  have hold {key : Key} {j : Nat} (hj : place? key rs = some j) :
      place? key (rs ++ [StoredRecord.ofMetric n]) = some j := by
    rw [hplaces, hj]
    rfl
  have hlength {key : Key} {j : Nat} (hj : place? key rs = some j) : j < rs.length :=
    (List.findIdx?_eq_some_iff_getElem.1 hj).1
  constructor
  · intro key hmem j hj
    have hne : m.key ≠ key := by
      rintro rfl
      rw [hplace] at hj
      cases hj
    have hrest : key ∈ ms.map Metric.key :=
      (List.mem_cons.1 hmem).resolve_left fun heq => hne heq.symm
    rcases h.first key hrest j (hold hj) with ⟨q, r', w, hq, hw, hr', hupdated⟩
    rw [List.getElem?_append_left (hlength hj)] at hq
    exact ⟨q, r', w, hq, hw, hr', hupdated.cons_of_ne hne⟩
  · intro j hj hnot
    have hkept := h.kept j (by rw [List.length_append]; exact Nat.lt_add_right _ hj)
      fun key hmem hother => ?_
    · rwa [List.getElem?_append_left hj] at hkept
    · have hfirst := hnot key (List.mem_cons_of_mem _ hmem)
      rw [hplaces] at hother
      cases hbefore : place? key rs with
      | some k =>
        rw [hbefore] at hother hfirst
        exact hfirst hother
      | none =>
        rw [hbefore, Option.none_or] at hother
        split at hother
        · cases hother
          exact absurd hj (Nat.lt_irrefl _)
        · cases hother
  · have hlast : place? n.key (rs ++ [StoredRecord.ofMetric n]) = some rs.length := by
      rw [hplaces, hkey, hplace, if_pos rfl, Option.none_or]
    have hrow : (rs ++ [StoredRecord.ofMetric n])[rs.length]? = some (StoredRecord.ofMetric n) :=
      List.getElem?_concat_length
    rcases h.ofMetric hn hlast hrow with ⟨r', hr', hupdated⟩
    rcases List.getElem?_eq_some_iff.1 hr' with ⟨hi, rfl⟩
    have hrest := h.new
    rw [hkey, ← hnext] at hupdated
    rw [List.length_append, List.length_singleton] at hrest
    rw [newKeys_cons_of_append hkey hplace, List.drop_eq_getElem_cons hi]
    have hplaced : ∀ key ∈ newKeys ms (rs ++ [StoredRecord.ofMetric n]), m.key ≠ key := by
      rintro key hmem rfl
      have hnone := place?_of_mem_newKeys hmem
      rw [← hkey, hlast] at hnone
      cases hnone
    refine .cons hupdated.cons ?_
    exact ((List.forall₂_and_left _ _).2 ⟨hplaced, hrest⟩).imp fun key q hq =>
      hq.2.cons_of_ne hq.1

end

/-- Updates that are taken change the first record of each of their keys, or add one. -/
theorem rewrites_of_mergeAll {ms answers : List Metric} {rs rs' : List StoredRecord}
    (h : form.mergeAll ms rs = .ok (answers, rs')) : Rewrites ms rs rs' := by
  induction ms generalizing rs answers with
  | nil =>
    cases h
    exact rewrites_nil _
  | cons m ms ih =>
    rw [RowForm.mergeAll] at h
    cases hmerge : form.merge m rs with
    | error e => simp [hmerge, bind, Except.bind] at h
    | ok x =>
      rcases x with ⟨next, rs₁⟩
      cases hrest : form.mergeAll ms rs₁ with
      | error e => simp [hmerge, hrest, bind, Except.bind] at h
      | ok y =>
        simp only [hmerge, hrest, bind, Except.bind, pure, Except.pure, Except.ok.injEq,
          Prod.mk.injEq] at h
        rcases h with ⟨-, rfl⟩
        have hlater := ih hrest
        rcases RowForm.merge_cases hmerge with
          ⟨i, r, v, hplace, hrow, hparse, hadd, rfl⟩ | ⟨hplace, hadd, rfl⟩
        · have hkind : v.kind = m.kind := (Value.isFinite_of_parse hparse).2
          rcases Metric.addTo_eq_ok hadd (by rintro w ⟨⟩; exact hkind) with ⟨hm, rfl⟩
          exact hlater.cons_of_set hm hplace hrow hparse
        · rcases Metric.addTo_eq_ok hadd (by rintro w ⟨⟩) with ⟨hm, rfl⟩
          exact hlater.cons_of_append hm hplace

end StoredRecord

/-! ## Files -/

namespace MetricsFile

variable {f : MetricsFile} {disk disk' : Disk} {ms answers : List Metric} {rs : List StoredRecord}

/-- Updates of a metrics file change the first record of each of their keys, or add one,
and keep every other record. -/
theorem rewrites (hread : f.read disk = .ok rs) (hadd : f.add disk ms = (.ok answers, disk')) :
    ∃ rs', f.read disk' = .ok rs' ∧ StoredRecord.Rewrites ms rs rs' := by
  rw [add, hread] at hadd
  cases hmerge : StoredRecord.form.mergeAll ms rs with
  | error e => simp [hmerge] at hadd
  | ok x =>
    rcases x with ⟨nexts, rs'⟩
    simp only [hmerge, Prod.mk.injEq] at hadd
    rcases hadd with ⟨hresult, rfl⟩
    have hwrite : (f.write disk rs').1 = .ok () := by
      cases hok : (f.write disk rs').1 with
      | ok u => rfl
      | error e => simp [hok, Except.map] at hresult
    exact ⟨rs', read_write hwrite, StoredRecord.rewrites_of_mergeAll hmerge⟩

/-- A file with a type that there is not, a value that stands for nothing and two records
of one key, after two updates of that key and two of one that is new. -/
theorem rewrites_beside_others :
    let f : MetricsFile := ⟨"metrics.json"⟩
    let rs : List StoredRecord := [⟨"timer", "polls", "7"⟩, ⟨"counter", "polls", " 7 "⟩,
      ⟨"gauge", "load", "much"⟩, ⟨"counter", "polls", "9"⟩]
    let ms : List Metric := [⟨"polls", .total (.clamp 5)⟩, ⟨"late", .reading (.zero false)⟩,
      ⟨"polls", .total (.clamp 1)⟩, ⟨"late", .reading (.zero true)⟩]
    let disk := (f.write (.withDirectory ["data"]) rs).2
    f.read disk = .ok rs ∧ ∃ answers disk', f.add disk ms = (.ok answers, disk') ∧
      ∃ rs', f.read disk' = .ok rs' ∧ StoredRecord.Rewrites ms rs rs' ∧
        rs' = [⟨"timer", "polls", "7"⟩, ⟨"counter", "polls", "13"⟩, ⟨"gauge", "load", "much"⟩,
          ⟨"counter", "polls", "9"⟩, ⟨"gauge", "late", "-0"⟩] := by
  intro f rs ms disk
  have hwrite : (f.write (.withDirectory ["data"]) rs).1 = .ok () := by decide +kernel
  have hread : f.read disk = .ok rs := read_write hwrite
  have hadd : (f.add disk ms).1 = .ok [⟨"polls", .total (.clamp 12)⟩, ⟨"late", .reading (.zero false)⟩,
      ⟨"polls", .total (.clamp 13)⟩, ⟨"late", .reading (.zero true)⟩] := by
    rw [add, hread]
    decide +kernel
  rcases rewrites hread (Prod.ext hadd rfl) with ⟨rs', hread', hrewrites⟩
  have hrecords : f.read (f.add disk ms).2 = .ok [⟨"timer", "polls", "7"⟩,
      ⟨"counter", "polls", "13"⟩, ⟨"gauge", "load", "much"⟩, ⟨"counter", "polls", "9"⟩,
      ⟨"gauge", "late", "-0"⟩] := by
    decide +kernel
  rw [hrecords] at hread'
  exact ⟨hread, _, _, Prod.ext hadd rfl, rs', by rw [hrecords, hread'], hrewrites, (Except.ok.inj hread').symm⟩

end MetricsFile

end MetricRelay
