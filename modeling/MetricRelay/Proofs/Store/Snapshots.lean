import MetricRelay.Proofs.Store.SignOfZero

/-!
# Snapshots of contents

A snapshot names each key once and in order, so it forgets in which order the
metrics of a store came in, and nothing else: what a store holds under each key
is read back from its snapshot.

Main definitions:

- `Content.Sound`: finite values, and each key at most once.
- `Content.Same`: the same value under each key.

Main results:

- `Content.Same.add`: updates of the same values are the same.
- `Content.Same.ofMetrics_eq`: contents with the same values have the same
  snapshot.
- `Snapshot.find?_of_parse`: what is under each key of a snapshot that was read.
- `Content.Sound.parse_ofMetrics`: the snapshot of a content is read back.
-/

namespace MetricRelay

/-! ## Contents -/

namespace Content

/-- No two metrics have the same key. -/
def Distinct (c : Content) : Prop := c.Pairwise fun m n => m.key ≠ n.key

/-- What a store may hold: finite values, and each key at most once. -/
structure Sound (c : Content) : Prop where
  finite : c.IsFinite
  distinct : c.Distinct

/-- Two contents have the same value under each key. -/
def Same (c d : Content) : Prop := ∀ key, c.find? key = d.find? key

section

variable {c d : Content} {m : Metric} {ms : List Metric}

/-- Of the metrics after an update one is new. -/
theorem mem_of_mem_put {n : Metric} (h : n ∈ c.put m) : n = m ∨ n ∈ c := by
  induction c with
  | nil => exact Or.inl (List.mem_singleton.1 h)
  | cons k c ih =>
    rw [put] at h
    by_cases hk : k.key = m.key
    · rw [if_pos hk, List.mem_cons] at h
      exact h.imp_right (List.mem_cons_of_mem k)
    · rw [if_neg hk, List.mem_cons] at h
      rcases h with rfl | h
      · exact Or.inr List.mem_cons_self
      · exact (ih h).imp_right (List.mem_cons_of_mem k)

/-- No update makes a second metric with a key. -/
theorem Distinct.put (h : c.Distinct) (m : Metric) : (c.put m).Distinct := by
  induction c with
  | nil => exact List.pairwise_singleton _ m
  | cons k c ih =>
    rcases List.pairwise_cons.1 h with ⟨hk, hc⟩
    rw [Content.put]
    by_cases hkey : k.key = m.key
    · rw [if_pos hkey]
      refine List.pairwise_cons.2 ⟨fun n hn => ?_, hc⟩
      rw [← hkey]
      exact hk n hn
    · rw [if_neg hkey]
      refine List.pairwise_cons.2 ⟨fun n hn => ?_, ih hc⟩
      rcases mem_of_mem_put hn with rfl | hn
      · exact hkey
      · exact hk n hn

/-- No updates make a second metric with a key. -/
theorem Distinct.add (h : c.Distinct) (ms : List Metric) : (Content.add ms c).2.Distinct := by
  induction ms generalizing c with
  | nil => exact h
  | cons m ms ih => exact ih (h.put (c.next m))

theorem sound_nil : Sound [] where
  finite _ hm := by cases hm
  distinct := List.Pairwise.nil

theorem Sound.put (h : c.Sound) (hm : m.value.isFinite = true) : (c.put m).Sound :=
  ⟨h.finite.put hm, h.distinct.put m⟩

/-- Contents stay sound with finite metrics. -/
theorem Sound.add (h : c.Sound) (hms : ∀ m ∈ ms, m.value.isFinite = true) :
    (Content.add ms c).2.Sound := by
  induction ms generalizing c with
  | nil => exact h
  | cons m ms ih =>
    have hm := hms m List.mem_cons_self
    exact ih (h.put (c.isFinite_next hm)) fun n hn => hms n (List.mem_cons_of_mem _ hn)

/-! ## The same values -/

theorem Same.refl (c : Content) : c.Same c := fun _ => rfl

theorem Same.symm (h : c.Same d) : d.Same c := fun key => (h key).symm

theorem Same.trans {e : Content} (h : c.Same d) (h' : d.Same e) : c.Same e := fun key =>
  (h key).trans (h' key)

theorem Same.next_eq (h : c.Same d) (m : Metric) : c.next m = d.next m := by
  rw [next, next, h m.key]

/-- Contents that agree still do after an update. -/
theorem Same.put (h : c.Same d) (m : Metric) : (c.put m).Same (d.put m) := by
  intro key
  rw [find?_put, find?_put, h key]

/-- Updates of the same values have the same answers and come to the same
values. -/
theorem Same.add (h : c.Same d) (ms : List Metric) :
    (Content.add ms c).1 = (Content.add ms d).1 ∧
      (Content.add ms c).2.Same (Content.add ms d).2 := by
  induction ms generalizing c d with
  | nil => exact ⟨rfl, h⟩
  | cons m ms ih =>
    have hput := h.put (c.next m)
    rw [add, add, ← h.next_eq m]
    rcases ih hput with ⟨hanswers, hsame⟩
    exact ⟨congrArg (c.next m :: ·) hanswers, hsame⟩

/-- Nothing is found under a key that no metric has. -/
theorem find?_of_forall_ne {key : Key} (h : ∀ m ∈ c, m.key ≠ key) : c.find? key = none := by
  induction c with
  | nil => rfl
  | cons m c ih =>
    rw [find?_cons, if_neg (h m List.mem_cons_self)]
    exact ih fun n hn => h n (List.mem_cons_of_mem _ hn)

/-! ## The sign of zero -/

/-- The sign of a zero is no part of a key. -/
theorem find?_map_unsignZero (c : Content) (key : Key) :
    find? (c.map Metric.unsignZero) key = (c.find? key).map Value.unsignZero := by
  induction c with
  | nil => rfl
  | cons m c ih =>
    have hkey : m.unsignZero.key = m.key := by
      simp [Metric.key, Metric.kind, Metric.unsignZero]
    rw [List.map_cons, find?_cons, find?_cons, hkey, ih]
    by_cases hm : m.key = key
    · rw [if_pos hm, if_pos hm]
      rfl
    · rw [if_neg hm, if_neg hm]

/-- Contents that agree agree without signs of zeros. -/
theorem Same.map_unsignZero (h : c.Same d) :
    Same (c.map Metric.unsignZero) (d.map Metric.unsignZero) := by
  intro key
  rw [find?_map_unsignZero, find?_map_unsignZero, h key]

/-- Sound contents are sound without them. -/
theorem Sound.map_unsignZero (h : c.Sound) : Sound (c.map Metric.unsignZero) := by
  constructor
  · intro m hm
    rcases List.mem_map.1 hm with ⟨n, hn, rfl⟩
    have hfinite := h.finite n hn
    rcases n with ⟨name, v⟩
    cases v with
    | total n => rfl
    | reading x =>
      cases x with
      | nan => cases hfinite
      | infinite negative => cases hfinite
      | finite negative rank =>
        simp only [Metric.unsignZero, Value.unsignZero, Binary64.unsignZero]
        split <;> rfl
  · refine List.pairwise_map.2 (h.distinct.imp fun {m n} hne => ?_)
    simpa [Metric.key, Metric.kind, Metric.unsignZero] using hne

end

end Content

/-! ## Looking up -/

namespace Snapshot

/-- No type is there without a name under it. -/
def IsFilled (s : Snapshot) : Prop :=
  ∀ type d, s.find? type = some d → ∃ name text, d.find? name = some text

theorem isFilled_empty : IsFilled .empty := fun _ _ h => by cases h

/-- A text that is put fills its type. -/
theorem IsFilled.put {s : Snapshot} (h : s.IsFilled) (type name text : String) :
    IsFilled (s.put type name text) := by
  intro type' d hd
  unfold Snapshot.put at hd
  rw [Dictionary.find?_insert] at hd
  by_cases htype : type = type'
  · rw [if_pos htype, Option.some.injEq] at hd
    refine ⟨name, text, ?_⟩
    rw [← hd, Dictionary.find?_insert, if_pos rfl]
  · rw [if_neg htype] at hd
    exact h type' d hd

/-- Snapshots without empty types that show the same texts are the same. -/
theorem ext_lookup? {s t : Snapshot} (hs : s.IsFilled) (ht : t.IsFilled)
    (h : ∀ type name, s.lookup? type name = t.lookup? type name) : s = t := by
  have hnone {s t : Snapshot} (hs : s.IsFilled)
      (h : ∀ type name, s.lookup? type name = t.lookup? type name) {type : String}
      (htype : t.find? type = none) : s.find? type = none := by
    cases hfind : s.find? type with
    | none => rfl
    | some d =>
      rcases hs type d hfind with ⟨name, text, hname⟩
      have hlookup := h type name
      rw [lookup?, lookup?, hfind, htype, Option.bind_some, hname] at hlookup
      cases hlookup
  apply Dictionary.ext_find?
  intro type
  cases htype : t.find? type with
  | none => exact hnone hs h htype
  | some e =>
    cases hfind : s.find? type with
    | none =>
      have hother := hnone ht (fun type name => (h type name).symm) hfind
      rw [htype] at hother
      cases hother
    | some d =>
      have hsame : d = e := by
        apply Dictionary.ext_find?
        intro name
        have hlookup := h type name
        rw [lookup?, lookup?, hfind, htype] at hlookup
        exact hlookup
      rw [hsame]

/-- The snapshot of contents has no empty types. -/
theorem isFilled_ofMetrics (c : Content) : IsFilled (ofMetrics c) := by
  have hfold (s : Snapshot) (hs : s.IsFilled) : IsFilled (c.foldl putMetric s) := by
    induction c generalizing s with
    | nil => exact hs
    | cons m c ih => exact ih _ (hs.put _ _ _)
  exact hfold _ isFilled_empty

/-- The snapshot of a content shows the text of what is under each key. -/
theorem lookup?_ofMetrics {c : Content} (h : c.Distinct) (type name : String) :
    lookup? (ofMetrics c) type name =
      (Kind.ofName? type).bind fun kind => (c.find? ⟨kind, name⟩).map Value.canonical := by
  have hfold (s : Snapshot) : lookup? (c.foldl putMetric s) type name =
      ((Kind.ofName? type).bind fun kind => (c.find? ⟨kind, name⟩).map Value.canonical).or
        (s.lookup? type name) := by
    induction c generalizing s with
    | nil => cases Kind.ofName? type <;> rfl
    | cons m c ih =>
      rcases List.pairwise_cons.1 h with ⟨hm, hc⟩
      rw [List.foldl_cons, ih hc, putMetric, lookup?_put]
      by_cases hkey : m.kind.name = type ∧ m.name = name
      · rcases hkey with ⟨rfl, rfl⟩
        have hout : Content.find? c m.key = none :=
          Content.find?_of_forall_ne fun n hn => Ne.symm (hm n hn)
        have hin : Content.find? (m :: c) m.key = some m.value := by
          rw [Content.find?_cons, if_pos rfl]
        rw [Kind.ofName?_name, Option.bind_some, Option.bind_some]
        show ((Content.find? c m.key).map Value.canonical).or _ =
          ((Content.find? (m :: c) m.key).map Value.canonical).or _
        rw [hout, hin, if_pos ⟨rfl, rfl⟩]
        rfl
      · rw [if_neg hkey]
        cases hkind : Kind.ofName? type with
        | none => rfl
        | some kind =>
          have hne : m.key ≠ ⟨kind, name⟩ := by
            intro heq
            have hname := Kind.ofName?_eq_some_iff.1 hkind
            refine hkey ⟨?_, congrArg Key.name heq⟩
            rw [← hname]
            exact congrArg (fun k : Key => k.kind.name) heq
          rw [Option.bind_some, Option.bind_some, Content.find?_cons, if_neg hne]
  rw [ofMetrics, hfold]
  exact Option.or_none

end Snapshot

/-- Contents with the same values have the same snapshot. -/
theorem Content.Same.ofMetrics_eq {c d : Content} (h : c.Same d) (hc : c.Distinct)
    (hd : d.Distinct) : Snapshot.ofMetrics c = Snapshot.ofMetrics d := by
  refine Snapshot.ext_lookup? (Snapshot.isFilled_ofMetrics c) (Snapshot.isFilled_ofMetrics d) ?_
  intro type name
  rw [Snapshot.lookup?_ofMetrics hc, Snapshot.lookup?_ofMetrics hd]
  cases Kind.ofName? type with
  | none => rfl
  | some kind => rw [Option.bind_some, Option.bind_some, h]

/-! ## Reading back -/

/-- A sorted dictionary finds its entries. -/
theorem Dictionary.find?_eq_some_iff {β : Type} {d : Dictionary β} {key : String} {v : β} :
    d.find? key = some v ↔ (key, v) ∈ d.entries := by
  rcases d with ⟨entries, sorted⟩
  show findIn? key entries = some v ↔ (key, v) ∈ entries
  induction entries with
  | nil => simp [findIn?]
  | cons x r ih =>
    rcases List.pairwise_cons.1 sorted with ⟨hx, hr⟩
    rcases x with ⟨k, w⟩
    rw [findIn?, List.mem_cons, Prod.mk.injEq]
    by_cases hk : k = key
    · subst hk
      rw [if_pos rfl, Option.some.injEq]
      constructor
      · rintro rfl
        exact Or.inl ⟨rfl, rfl⟩
      · rintro (⟨-, rfl⟩ | hmem)
        · rfl
        · exact absurd (hx _ hmem) (String.lt_irrefl k)
    · rw [if_neg hk, ih hr]
      constructor
      · exact Or.inr
      · rintro (⟨rfl, -⟩ | hmem)
        · exact absurd rfl hk
        · exact hmem

/-- What is under a key is a metric of the content. -/
theorem Content.Distinct.find?_eq_some_iff {c : Content} (h : c.Distinct) {m : Metric} :
    c.find? m.key = some m.value ↔ m ∈ c := by
  induction c with
  | nil => simp [Content.find?]
  | cons n c ih =>
    rcases List.pairwise_cons.1 h with ⟨hn, hc⟩
    rw [Content.find?_cons, List.mem_cons]
    by_cases hkey : n.key = m.key
    · rw [if_pos hkey, Option.some.injEq]
      constructor
      · intro hvalue
        rcases m with ⟨name, value⟩
        rcases n with ⟨name', value'⟩
        exact Or.inl (congr (congrArg Metric.mk (congrArg Key.name hkey.symm)) hvalue.symm)
      · rintro (rfl | hmem)
        · rfl
        · exact absurd hkey (hn m hmem)
    · rw [if_neg hkey, ih hc]
      constructor
      · exact Or.inr
      · rintro (rfl | hmem)
        · exact absurd rfl hkey
        · exact hmem

/-- Distinct contents with the same metrics agree. -/
theorem Content.same_of_mem_iff {c d : Content} (hc : c.Distinct) (hd : d.Distinct)
    (h : ∀ m, m ∈ c ↔ m ∈ d) : c.Same d := by
  intro key
  apply Option.ext
  intro v
  have hkind {c : Content} : c.find? key = some v → (⟨key.name, v⟩ : Metric).key = key := by
    intro hfind
    have hv := Content.kind_of_find? hfind
    rcases key with ⟨kind, name⟩
    exact congrArg (Key.mk · name) hv
  constructor
  · intro hfind
    have hkey := hkind hfind
    rw [← hkey] at hfind ⊢
    exact hd.find?_eq_some_iff.2 ((h _).1 (hc.find?_eq_some_iff.1 hfind))
  · intro hfind
    have hkey := hkind hfind
    rw [← hkey] at hfind ⊢
    exact hc.find?_eq_some_iff.2 ((h _).2 (hd.find?_eq_some_iff.1 hfind))

namespace Metric

/-- A metric is parsed for its own key. -/
theorem key_of_parse {kind : Kind} {name raw : String} {m : Metric}
    (h : parse kind name raw = .ok m) : m.key = ⟨kind, name⟩ := by
  unfold parse at h
  cases hv : Value.parse kind raw with
  | error e => simp [hv, Except.map] at h
  | ok v =>
    simp only [hv, Except.map, Except.ok.injEq] at h
    rw [← h]
    exact congrArg (Key.mk · name) (Value.isFinite_of_parse hv).2

/-- A finite metric is parsed from its canonical text. -/
theorem parse_canonical {m : Metric} (h : m.value.isFinite = true) :
    parse m.kind m.name m.value.canonical = .ok m := by
  unfold parse
  rw [show m.kind = m.value.kind from rfl, Value.parse_canonical h]
  rfl

end Metric

namespace Snapshot

variable {s : Snapshot} {ms : List Metric}

/-- A snapshot is parsed one type after the other. -/
theorem parse_eq_ok_iff :
    s.parse = .ok ms ↔ ∃ lists, s.entries.mapM parseType = .ok lists ∧ ms = lists.flatten := by
  unfold parse
  cases hlists : s.entries.mapM parseType with
  | error e => simp [bind, Except.bind]
  | ok lists =>
    simp only [bind, Except.bind, pure, Except.pure, Except.ok.injEq, exists_eq_left']
    exact eq_comm

/-- A type is parsed one name after the other. -/
theorem parseType_eq_ok_iff {t : String × Dictionary String} {l : List Metric} :
    parseType t = .ok l ↔
      ∃ kind, Kind.parse t.1 = .ok kind ∧
        (t.2.entries.mapM fun n => Metric.parse kind n.1 n.2) = .ok l := by
  unfold parseType
  cases hkind : Kind.parse t.1 with
  | error e => simp [bind, Except.bind]
  | ok kind => simp [bind, Except.bind]

/-- The metrics of a snapshot are those that its texts stand for. -/
theorem mem_iff_of_parse (h : s.parse = .ok ms) (m : Metric) :
    m ∈ ms ↔ ∃ text, s.lookup? m.kind.name m.name = some text ∧
      Metric.parse m.kind m.name text = .ok m := by
  rcases parse_eq_ok_iff.1 h with ⟨lists, hlists, rfl⟩
  rw [List.mem_flatten]
  constructor
  · rintro ⟨l, hl, hm⟩
    rcases exists_of_mem_mapM hlists hl with ⟨⟨type, d⟩, ht, htype⟩
    rcases parseType_eq_ok_iff.1 htype with ⟨kind, hkind, hmetrics⟩
    rcases exists_of_mem_mapM hmetrics hm with ⟨⟨name, text⟩, hn, hmetric⟩
    obtain rfl := Kind.parse_eq_ok_iff.1 hkind
    obtain ⟨rfl, rfl⟩ := Key.mk.inj (Metric.key_of_parse hmetric)
    refine ⟨text, ?_, hmetric⟩
    rw [lookup?, Dictionary.find?_eq_some_iff.2 ht]
    exact Dictionary.find?_eq_some_iff.2 hn
  · rintro ⟨text, htext, hmetric⟩
    rcases Option.bind_eq_some_iff.1 htext with ⟨d, hd, hname⟩
    rcases exists_mem_of_mapM hlists (Dictionary.find?_eq_some_iff.1 hd) with ⟨l, hl, htype⟩
    rcases parseType_eq_ok_iff.1 htype with ⟨kind, hkind, hmetrics⟩
    obtain rfl := Kind.name_injective (Kind.parse_eq_ok_iff.1 hkind)
    rcases exists_mem_of_mapM hmetrics (Dictionary.find?_eq_some_iff.1 hname) with ⟨n, hn, hread⟩
    rw [hmetric, Except.ok.injEq] at hread
    exact ⟨l, hl, hread ▸ hn⟩

/-- The metrics of a snapshot have different keys. -/
theorem distinct_of_parse (h : s.parse = .ok ms) : Content.Distinct ms := by
  rcases parse_eq_ok_iff.1 h with ⟨lists, hlists, rfl⟩
  have hkind {t : String × Dictionary String} {l : List Metric} (hl : parseType t = .ok l)
      {m : Metric} (hm : m ∈ l) : m.kind.name = t.1 := by
    rcases parseType_eq_ok_iff.1 hl with ⟨kind, hkind, hmetrics⟩
    rcases exists_of_mem_mapM hmetrics hm with ⟨n, -, hmetric⟩
    rw [← Kind.parse_eq_ok_iff.1 hkind]
    exact congrArg (fun key : Key => key.kind.name) (Metric.key_of_parse hmetric)
  refine List.pairwise_flatten.2 ⟨fun l hl => ?_, ?_⟩
  · rcases exists_of_mem_mapM hlists hl with ⟨t, -, htype⟩
    rcases parseType_eq_ok_iff.1 htype with ⟨kind, -, hmetrics⟩
    refine pairwise_of_mapM ?_ t.2.sorted hmetrics
    intro x y m n hlt hm hn heq
    rw [Metric.key_of_parse hm, Metric.key_of_parse hn] at heq
    obtain ⟨-, hname⟩ := Key.mk.inj heq
    rw [hname] at hlt
    exact String.lt_irrefl _ hlt
  · refine pairwise_of_mapM ?_ s.sorted hlists
    intro x y l l' hlt hl hl' m hm n hn heq
    have hname : m.kind.name = n.kind.name := congrArg (fun key : Key => key.kind.name) heq
    rw [hkind hl hm, hkind hl' hn] at hname
    rw [hname] at hlt
    exact String.lt_irrefl _ hlt

/-- A snapshot of metrics is that of a sound content. -/
theorem sound_of_parse (h : s.parse = .ok ms) : Content.Sound ms :=
  ⟨isFinite_of_parse h, distinct_of_parse h⟩

end Snapshot

/-- The snapshot of a content is read back, up to the order of its metrics. -/
theorem Content.Sound.parse_ofMetrics {c : Content} (h : c.Sound) :
    ∃ ms, (Snapshot.ofMetrics c).parse = .ok ms ∧ Content.Sound ms ∧ c.Same ms := by
  have hlookup := Snapshot.lookup?_ofMetrics h.distinct
  have htext {type name text : String}
      (htext : Snapshot.lookup? (Snapshot.ofMetrics c) type name = some text) :
      ∃ m ∈ c, m.kind.name = type ∧ m.name = name ∧ m.value.canonical = text := by
    rw [hlookup] at htext
    rcases Option.bind_eq_some_iff.1 htext with ⟨kind, hkind, hfind⟩
    rcases Option.map_eq_some_iff.1 hfind with ⟨v, hv, rfl⟩
    have hkindV : v.kind = kind := Content.kind_of_find? hv
    obtain rfl := Kind.ofName?_eq_some_iff.1 hkind
    subst hkindV
    exact ⟨⟨name, v⟩, h.distinct.find?_eq_some_iff.1 hv, rfl, rfl, rfl⟩
  have hmetric {t : String × Dictionary String} (ht : t ∈ (Snapshot.ofMetrics c).entries) :
      ∃ l, Snapshot.parseType t = .ok l := by
    rcases t with ⟨type, d⟩
    have hd := Dictionary.find?_eq_some_iff.2 ht
    have hentry {name text : String} (hname : d.find? name = some text) :
        ∃ m ∈ c, m.kind.name = type ∧ m.name = name ∧ m.value.canonical = text := by
      apply htext
      rw [Snapshot.lookup?, hd]
      exact hname
    rcases Snapshot.isFilled_ofMetrics c type d hd with ⟨name, text, hname⟩
    rcases hentry hname with ⟨m, -, rfl, -, -⟩
    have hread : ∀ n ∈ d.entries, ∃ k, Metric.parse m.kind n.1 n.2 = .ok k := by
      rintro ⟨name', text'⟩ hn
      rcases hentry (Dictionary.find?_eq_some_iff.2 hn) with ⟨k, hk, hkind, rfl, rfl⟩
      obtain hkind := Kind.name_injective hkind
      rw [← hkind]
      exact ⟨k, Metric.parse_canonical (h.finite k hk)⟩
    rcases exists_mapM_eq_ok hread with ⟨l, hl⟩
    exact ⟨l, Snapshot.parseType_eq_ok_iff.2 ⟨m.kind, Kind.parse_name m.kind, hl⟩⟩
  rcases exists_mapM_eq_ok fun t ht => hmetric ht with ⟨lists, hlists⟩
  have hparse : (Snapshot.ofMetrics c).parse = .ok lists.flatten :=
    Snapshot.parse_eq_ok_iff.2 ⟨lists, hlists, rfl⟩
  have hsound := Snapshot.sound_of_parse hparse
  refine ⟨lists.flatten, hparse, hsound, Content.same_of_mem_iff h.distinct hsound.distinct ?_⟩
  intro m
  rw [Snapshot.mem_iff_of_parse hparse]
  constructor
  · intro hm
    refine ⟨m.value.canonical, ?_, Metric.parse_canonical (h.finite m hm)⟩
    rw [hlookup, Kind.ofName?_name, Option.bind_some]
    exact congrArg (Option.map Value.canonical) (h.distinct.find?_eq_some_iff.2 hm)
  · rintro ⟨text, hshown, hread⟩
    rcases htext hshown with ⟨n, hn, hkind, hname, rfl⟩
    have hback := Metric.parse_canonical (h.finite n hn)
    rw [Kind.name_injective hkind, hname, hread, Except.ok.injEq] at hback
    exact hback ▸ hn

end MetricRelay
