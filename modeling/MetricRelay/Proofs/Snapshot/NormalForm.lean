import Mathlib.Data.List.Sort
import MetricRelay.Proofs.Snapshot.Order

/-!
# The normal form of a snapshot

A snapshot that is built from metrics shows the last metric of each key, and reading it gives
these metrics in order.  A snapshot from elsewhere may hold anything: reading it fails where
the first type is no kind or the first text is no value, and otherwise it is built again
with the same keys and with the texts of values as they are always written.

Main definitions:

- `Metric.IsLastIn`: a metric after which no other one has its key.
- `Metric.InOrder`: metrics in the order of kinds and then of names.
- `Snapshot.FaultAt`: what is wrong with a snapshot at some place.
- `Snapshot.IsNormalFormOf`: a snapshot built again from what was read.

Main results:

- `Snapshot.lookup?_ofMetrics_eq_reverse`: what a snapshot of any metrics shows.
- `Snapshot.parse_eq_error_iff`: the first fault decides.
- `Snapshot.parse_normal`: building, reading and building again.
-/

namespace MetricRelay

/-! ## Metrics in order -/

namespace Metric

/-- No later metric has the key of this one. -/
def IsLastIn (m : Metric) (ms : List Metric) : Prop :=
  ∃ before after, ms = before ++ m :: after ∧ ∀ n ∈ after, n.key ≠ m.key

/-- The place of a metric in a snapshot. -/
def place (m : Metric) : String × String := (m.kind.name, m.name)

/-- Metrics in the order of the bytes of their kinds and then of their names, each key once. -/
def InOrder (ms : List Metric) : Prop := ms.Pairwise fun m n => Utf8.Before m.place n.place

/-- The last metric of a key is the first one from the end. -/
theorem isLastIn_iff {m : Metric} {ms : List Metric} :
    m.IsLastIn ms ↔ Content.find? ms.reverse m.key = some m.value := by
  rw [Content.find?, Option.map_eq_some_iff]
  constructor
  · rintro ⟨before, after, rfl, hafter⟩
    refine ⟨m, List.find?_eq_some_iff_append.2 ⟨by simp, after.reverse, before.reverse, ?_, ?_⟩,
      rfl⟩
    · simp
    · intro n hn
      simpa using hafter n (List.mem_reverse.1 hn)
  · rintro ⟨n, hfind, hvalue⟩
    rcases List.find?_eq_some_iff_append.1 hfind with ⟨hkey, after, before, heq, hafter⟩
    obtain rfl : n = m := by
      have hname : n.name = m.name := congrArg Key.name (of_decide_eq_true hkey)
      rcases n with ⟨name, value⟩
      rcases m with ⟨name', value'⟩
      exact congr (congrArg Metric.mk hname) hvalue
    refine ⟨before.reverse, after.reverse, ?_, fun k hk => ?_⟩
    · rw [← List.reverse_reverse ms, heq]
      simp
    · simpa using hafter k (List.mem_reverse.1 hk)

/-- An entry is at fault if its value is. -/
theorem parse_eq_error_iff {kind : Kind} {name text : String} {e : Failure} :
    parse kind name text = .error e ↔ Value.parse kind text = .error e := by
  unfold parse
  cases Value.parse kind text <;> simp [Except.map]

/-- A metric is parsed from its name and its value. -/
theorem parse_eq_ok_iff {kind : Kind} {name text : String} {m : Metric} :
    parse kind name text = .ok m ↔ m.name = name ∧ Value.parse kind text = .ok m.value := by
  unfold parse
  rcases m with ⟨name', v⟩
  cases Value.parse kind text <;> simp [Except.map, eq_comm]

end Metric

namespace Utf8

/-- The order of keys is transitive. -/
theorem Before.trans {x y z : String × String} (h : Before x y) (h' : Before y z) :
    Before x z := by
  rcases before_iff.1 h with hfirst | ⟨hfirst, hsecond⟩ <;>
  rcases before_iff.1 h' with hfirst' | ⟨hfirst', hsecond'⟩
  · exact before_iff.2 (Or.inl (String.lt_trans hfirst hfirst'))
  · exact before_iff.2 (Or.inl (hfirst' ▸ hfirst))
  · exact before_iff.2 (Or.inl (hfirst ▸ hfirst'))
  · exact before_iff.2 (Or.inr ⟨hfirst.trans hfirst', String.lt_trans hsecond hsecond'⟩)

/-- Of two keys only one is before the other. -/
theorem Before.asymm {x y : String × String} (h : Before x y) : ¬ Before y x := fun h' =>
  (h.trans h').ne rfl

end Utf8

/-- Metrics in order are known by which metrics they are. -/
theorem Metric.InOrder.eq_of_mem_iff {ms ns : List Metric} (hms : InOrder ms) (hns : InOrder ns)
    (h : ∀ m, m ∈ ms ↔ m ∈ ns) : ms = ns := by
  have : Std.Irrefl fun m n : Metric => Utf8.Before m.place n.place := ⟨fun m h => h.ne rfl⟩
  have : Std.Antisymm fun m n : Metric => Utf8.Before m.place n.place :=
    ⟨fun m n h h' => absurd h' h.asymm⟩
  exact List.Pairwise.eq_of_mem_iff hms hns h

/-! ## Snapshots of any metrics -/

namespace Content

/-- The metrics of a list, of two with the same key the first one. -/
def ofList (ms : List Metric) : Content := ms.foldr put []

/-- In the contents of a list a key is found as in the list. -/
theorem find?_ofList (ms : List Metric) (key : Key) : find? (ofList ms) key = find? ms key := by
  induction ms with
  | nil => rfl
  | cons m ms ih => rw [ofList, List.foldr_cons, find?_put, find?_cons, ← ofList, ih]

/-- The contents of finite metrics are sound. -/
theorem sound_ofList {ms : List Metric} (h : IsFinite ms) : Sound (ofList ms) := by
  induction ms with
  | nil => exact sound_nil
  | cons m ms ih =>
    exact (ih fun n hn => h n (List.mem_cons_of_mem _ hn)).put (h m List.mem_cons_self)

end Content

namespace Snapshot

variable {s : Snapshot} {ms : List Metric}

/-- A snapshot of metrics shows the last metric of each key. -/
theorem lookup?_ofMetrics_eq_reverse (ms : List Metric) (type name : String) :
    lookup? (ofMetrics ms) type name = (Kind.ofName? type).bind fun kind =>
      (Content.find? ms.reverse ⟨kind, name⟩).map Value.canonical := by
  have hfold : ofMetrics ms = ms.reverse.foldr (fun m s => s.putMetric m) .empty := by
    rw [List.foldr_reverse]
    rfl
  rw [hfold]
  induction ms.reverse with
  | nil => cases Kind.ofName? type <;> rfl
  | cons m l ih =>
    rw [List.foldr_cons, putMetric, lookup?_put, ih]
    by_cases hplace : m.kind.name = type ∧ m.name = name
    · rcases hplace with ⟨rfl, rfl⟩
      rw [if_pos ⟨rfl, rfl⟩, Kind.ofName?_name, Option.bind_some, Content.find?_cons,
        if_pos (show m.key = ⟨m.kind, m.name⟩ from rfl)]
      rfl
    · rw [if_neg hplace]
      cases hkind : Kind.ofName? type with
      | none => rfl
      | some kind =>
        have hne : m.key ≠ ⟨kind, name⟩ := by
          intro heq
          obtain ⟨hk, hn⟩ := Key.mk.inj heq
          exact hplace ⟨by rw [hk, Kind.ofName?_eq_some_iff.1 hkind], hn⟩
        rw [Option.bind_some, Option.bind_some, Content.find?_cons, if_neg hne]

/-- What is read from a snapshot is in order. -/
theorem inOrder_of_parse (h : s.parse = .ok ms) : Metric.InOrder ms := by
  rcases parse_eq_ok_iff.1 h with ⟨lists, hlists, rfl⟩
  have hkind {t : String × Dictionary String} {l : List Metric} (hl : parseType t = .ok l) :
      ∀ m ∈ l, m.kind.name = t.1 := by
    rcases parseType_eq_ok_iff.1 hl with ⟨kind, hkind, hmetrics⟩
    refine forall_of_mapM (fun n m hmetric => ?_) hmetrics
    rw [← Kind.parse_eq_ok_iff.1 hkind]
    exact congrArg (fun key : Key => key.kind.name) (Metric.key_of_parse hmetric)
  refine List.pairwise_flatten.2 ⟨fun l hl => ?_, pairwise_of_mapM ?_ s.sorted hlists⟩
  · rcases exists_of_mem_mapM hlists hl with ⟨t, -, htype⟩
    rcases parseType_eq_ok_iff.1 htype with ⟨kind, -, hmetrics⟩
    refine pairwise_of_mapM (fun x y m n hlt hm hn => ?_) t.2.sorted hmetrics
    have hm' : m.place = (kind.name, x.1) :=
      congrArg (fun key : Key => (key.kind.name, key.name)) (Metric.key_of_parse hm)
    have hn' : n.place = (kind.name, y.1) :=
      congrArg (fun key : Key => (key.kind.name, key.name)) (Metric.key_of_parse hn)
    rw [hm', hn']
    exact Utf8.before_iff.2 (Or.inr ⟨rfl, hlt⟩)
  · intro x y l l' hlt hl hl' m hm n hn
    refine Utf8.before_iff.2 (Or.inl ?_)
    show m.kind.name < n.kind.name
    rw [hkind hl m hm, hkind hl' n hn]
    exact hlt

/-- Metrics are read back from their snapshot: the last of each key, in order. -/
theorem parse_ofMetrics (h : Content.IsFinite ms) :
    ∃ ns, (ofMetrics ms).parse = .ok ns ∧ Metric.InOrder ns ∧ ∀ m, m ∈ ns ↔ m.IsLastIn ms := by
  have hfinite : Content.IsFinite ms.reverse := fun m hm => h m (List.mem_reverse.1 hm)
  have hsound := Content.sound_ofList hfinite
  have hsame : ofMetrics ms = ofMetrics (Content.ofList ms.reverse) := by
    refine ext_lookup? (isFilled_ofMetrics _) (isFilled_ofMetrics _) fun type name => ?_
    rw [lookup?_ofMetrics_eq_reverse, lookup?_ofMetrics hsound.distinct]
    simp only [Content.find?_ofList]
  rcases hsound.parse_ofMetrics with ⟨ns, hparse, hns, hvalues⟩
  rw [← hsame] at hparse
  refine ⟨ns, hparse, inOrder_of_parse hparse, fun m => ?_⟩
  rw [← hns.distinct.find?_eq_some_iff, ← hvalues, Content.find?_ofList, Metric.isLastIn_iff]

/-! ## Faults -/

/-- What is wrong with a snapshot at a place: a type that is no kind, even if there is nothing
under it, or a text that is no value of its kind. -/
inductive FaultAt (s : Snapshot) : String → Option String → Failure → Prop
  | type {type : String} {d : Dictionary String} (there : s.find? type = some d)
      (unknown : ∀ kind : Kind, kind.name ≠ type) : FaultAt s type none (.unknownKind type)
  | value {kind : Kind} {name text : String} {e : Failure}
      (there : s.lookup? kind.name name = some text)
      (unreadable : Value.parse kind text = .error e) : FaultAt s kind.name (some name) e

/-- A fault that stands before all others. -/
def IsFirstFault (s : Snapshot) (type : String) (name : Option String) (e : Failure) : Prop :=
  FaultAt s type name e ∧ ∀ type' name' e', FaultAt s type' name' e' →
    (type', name') = (type, name) ∨ Utf8.Before (type, name.getD "") (type', name'.getD "")

variable {type : String} {name : Option String} {e : Failure}

/-- At one place there is one fault. -/
theorem FaultAt.failure_unique {e' : Failure} (h : FaultAt s type name e)
    (h' : FaultAt s type name e') : e = e' := by
  cases h with
  | type =>
    cases h'
    rfl
  | @value kind name text e hthere hread =>
    generalize htype : kind.name = type at h'
    generalize hname : some name = name' at h'
    cases h' with
    | type => cases hname
    | @value kind' name' text' e' hthere' hread' =>
      obtain rfl := Kind.name_injective htype
      obtain rfl := Option.some.inj hname
      rw [hthere, Option.some.injEq] at hthere'
      rw [hthere', hread', Except.error.injEq] at hread
      exact hread.symm

end Snapshot

/-- What reading a sorted dictionary fails with is the failure of its first entry that fails. -/
theorem Dictionary.exists_first_of_mapM_eq_error {β γ : Type} {d : Dictionary β}
    {f : String × β → Outcome γ} {e : Failure} (h : d.entries.mapM f = .error e) :
    ∃ key v, d.find? key = some v ∧ f (key, v) = .error e ∧
      ∀ key' v', d.find? key' = some v' → (∃ e', f (key', v') = .error e') →
        key' = key ∨ key < key' := by
  rcases exists_of_mapM_eq_error h with ⟨i, hi, hbefore, hfail⟩
  refine ⟨d.entries[i].1, d.entries[i].2, Dictionary.find?_eq_some_iff.2 (List.getElem_mem hi),
    hfail, ?_⟩
  rintro key' v' hfind ⟨e', hfail'⟩
  rcases List.mem_iff_getElem.1 (Dictionary.find?_eq_some_iff.1 hfind) with ⟨k, hk, hentry⟩
  rcases Nat.lt_trichotomy k i with hlt | rfl | hgt
  · have htake : (key', v') ∈ d.entries.take i :=
      List.mem_take_iff_getElem.2 ⟨k, Nat.lt_min.2 ⟨hlt, hk⟩, hentry⟩
    rcases hbefore _ htake with ⟨b, hb⟩
    rw [hfail'] at hb
    cases hb
  · exact Or.inl (congrArg Prod.fst hentry).symm
  · have hsorted := List.pairwise_iff_getElem.1 d.sorted i k hi hk hgt
    rw [hentry] at hsorted
    exact Or.inr hsorted

namespace Snapshot

variable {s : Snapshot} {ms : List Metric} {type : String} {name : Option String} {e : Failure}

/-- The fault of a snapshot is that of its types, read one after the other. -/
theorem mapM_eq_error_of_parse (h : s.parse = .error e) : s.entries.mapM parseType = .error e := by
  unfold parse at h
  cases hlists : s.entries.mapM parseType with
  | error e' => simpa [hlists, bind, Except.bind] using h
  | ok lists => simp [hlists, bind, Except.bind, pure, Except.pure] at h

/-- Reading a type fails because it is no kind or because of a text under it. -/
theorem parseType_eq_error {t : String × Dictionary String} (h : parseType t = .error e) :
    (∀ kind : Kind, kind.name ≠ t.1) ∧ e = .unknownKind t.1 ∨
      ∃ kind : Kind, kind.name = t.1 ∧
        (t.2.entries.mapM fun n => Metric.parse kind n.1 n.2) = .error e := by
  unfold parseType at h
  cases hkind : Kind.ofName? t.1 with
  | none =>
    simp only [Kind.parse, hkind, bind, Except.bind, Except.error.injEq] at h
    refine Or.inl ⟨fun kind hname => ?_, h.symm⟩
    rw [← hname, Kind.ofName?_name] at hkind
    cases hkind
  | some kind =>
    simp only [Kind.parse, hkind, bind, Except.bind] at h
    exact Or.inr ⟨kind, Kind.ofName?_eq_some_iff.1 hkind, h⟩

/-- A type under which something is wrong cannot be read. -/
theorem FaultAt.exists_parseType_eq_error (h : FaultAt s type name e) :
    ∃ d e', s.find? type = some d ∧ parseType (type, d) = .error e' := by
  cases h with
  | @type type d hthere hunknown =>
    refine ⟨d, .unknownKind type, hthere, ?_⟩
    have hkind : Kind.ofName? type = none := by
      cases hname : Kind.ofName? type with
      | none => rfl
      | some kind => exact absurd (Kind.ofName?_eq_some_iff.1 hname) (hunknown kind)
    simp [parseType, Kind.parse, hkind, bind, Except.bind]
  | @value kind name text e hthere hread =>
    rcases Option.bind_eq_some_iff.1 hthere with ⟨d, hd, hname⟩
    cases hparse : parseType (kind.name, d) with
    | error e' => exact ⟨d, e', hd, hparse⟩
    | ok l =>
      rcases parseType_eq_ok_iff.1 hparse with ⟨kind', hkind', hmetrics⟩
      obtain rfl := Kind.name_injective (Kind.parse_eq_ok_iff.1 hkind')
      rcases exists_mem_of_mapM hmetrics (Dictionary.find?_eq_some_iff.1 hname) with ⟨m, -, hm⟩
      rw [Metric.parse_eq_error_iff.2 hread] at hm
      cases hm

/-- A snapshot that cannot be read has a first fault, and fails with it. -/
theorem exists_isFirstFault_of_parse (h : s.parse = .error e) :
    ∃ type name, IsFirstFault s type name e := by
  rcases Dictionary.exists_first_of_mapM_eq_error (mapM_eq_error_of_parse h) with
    ⟨type, d, hd, hfail, hfirst⟩
  have htype {type' : String} {name' : Option String} {e' : Failure}
      (hfault : FaultAt s type' name' e') : type' = type ∨ type < type' := by
    rcases hfault.exists_parseType_eq_error with ⟨d', e'', hd', hfail'⟩
    exact hfirst type' d' hd' ⟨e'', hfail'⟩
  rcases parseType_eq_error hfail with ⟨hunknown, rfl⟩ | ⟨kind, rfl, hmetrics⟩
  · refine ⟨type, none, .type hd hunknown, fun type' name' e' hfault => ?_⟩
    rcases htype hfault with rfl | hlt
    · cases hfault with
      | type => exact Or.inl rfl
      | @value kind name text e hthere hread => exact absurd rfl (hunknown kind)
    · exact Or.inr (Utf8.before_iff.2 (Or.inl hlt))
  · rcases Dictionary.exists_first_of_mapM_eq_error hmetrics with
      ⟨name, text, hname, hread, hfirstName⟩
    have hthere : s.lookup? kind.name name = some text := by
      rw [lookup?, hd]
      exact hname
    refine ⟨kind.name, some name, .value hthere (Metric.parse_eq_error_iff.1 hread),
      fun type' name' e' hfault => ?_⟩
    rcases htype hfault with heq | hlt
    · cases hfault with
      | type _ hunknown => exact absurd heq.symm (hunknown kind)
      | @value kind' name' text' e' hthere' hread' =>
        obtain rfl := Kind.name_injective heq
        rw [lookup?, hd] at hthere'
        rcases hfirstName name' text' hthere' ⟨e', Metric.parse_eq_error_iff.2 hread'⟩ with
          rfl | hlt
        · exact Or.inl rfl
        · exact Or.inr (Utf8.before_iff.2 (Or.inr ⟨rfl, hlt⟩))
    · exact Or.inr (Utf8.before_iff.2 (Or.inl hlt))

/-- A snapshot with a fault is not parsed. -/
theorem FaultAt.parse_ne_ok (h : FaultAt s type name e) : s.parse ≠ .ok ms := by
  intro hparse
  rcases parse_eq_ok_iff.1 hparse with ⟨lists, hlists, -⟩
  rcases h.exists_parseType_eq_error with ⟨d, e', hd, hfail⟩
  rcases exists_mem_of_mapM hlists (Dictionary.find?_eq_some_iff.1 hd) with ⟨l, -, hl⟩
  rw [hfail] at hl
  cases hl

/-- Reading fails with the first fault. -/
theorem parse_eq_error_iff : s.parse = .error e ↔ ∃ type name, IsFirstFault s type name e := by
  refine ⟨exists_isFirstFault_of_parse, ?_⟩
  rintro ⟨type, name, hfault, hfirst⟩
  cases hparse : s.parse with
  | ok ms => exact absurd hparse hfault.parse_ne_ok
  | error e' =>
    rcases exists_isFirstFault_of_parse hparse with ⟨type', name', hfault', hfirst'⟩
    have hplace : (type', name') = (type, name) := by
      rcases hfirst type' name' e' hfault' with heq | hbefore
      · exact heq
      · rcases hfirst' type name e hfault with heq | hbefore'
        · exact heq.symm
        · exact absurd hbefore' hbefore.asymm
    obtain ⟨rfl, rfl⟩ := Prod.mk.inj hplace
    rw [hfault'.failure_unique hfault]

/-- A snapshot is refused exactly if there is a fault in it. -/
theorem exists_parse_eq_error_iff :
    (∃ e, s.parse = .error e) ↔ ∃ type name e, FaultAt s type name e := by
  constructor
  · rintro ⟨e, he⟩
    rcases parse_eq_error_iff.1 he with ⟨type, name, hfault, -⟩
    exact ⟨type, name, e, hfault⟩
  · rintro ⟨type, name, e, hfault⟩
    cases hparse : s.parse with
    | ok ms => exact absurd hparse hfault.parse_ne_ok
    | error e' => exact ⟨e', rfl⟩

/-! ## Building again -/

/-- What is built from the metrics `ms` that were read from a snapshot: each text is that of the
value which was read there, types with nothing under them are gone, and reading and building
once more changes nothing. -/
structure IsNormalFormOf (t s : Snapshot) (ms : List Metric) : Prop where
  canonical : ∀ (kind : Kind) name, t.lookup? kind.name name =
    (s.lookup? kind.name name).bind fun text =>
      (Value.parse kind text).toOption.map Value.canonical
  keys : ∀ type name, (t.lookup? type name).isSome = (s.lookup? type name).isSome
  types : ∀ type, (t.find? type).isSome = true ↔ ∃ name, (s.lookup? type name).isSome = true
  again : t.parse = .ok ms ∧ ofMetrics ms = t

/-- What was read at a place. -/
theorem find?_of_parse (h : s.parse = .ok ms) (kind : Kind) (name : String) :
    Content.find? ms ⟨kind, name⟩ =
      (s.lookup? kind.name name).bind fun text => (Value.parse kind text).toOption := by
  have hmem {v : Value} (hkind : v.kind = kind) : Content.find? ms ⟨kind, name⟩ = some v ↔
      ∃ text, s.lookup? kind.name name = some text ∧ Value.parse kind text = .ok v := by
    subst hkind
    have hkey : Content.find? ms ⟨v.kind, name⟩ = some v ↔ (⟨name, v⟩ : Metric) ∈ ms :=
      (distinct_of_parse h).find?_eq_some_iff (m := ⟨name, v⟩)
    rw [hkey, mem_iff_of_parse h]
    simp only [Metric.parse_eq_ok_iff, Metric.kind, true_and]
  apply Option.ext
  intro v
  rw [Option.bind_eq_some_iff]
  constructor
  · intro hfind
    rcases (hmem (Content.kind_of_find? hfind)).1 hfind with ⟨text, htext, hread⟩
    exact ⟨text, htext, by rw [hread]; rfl⟩
  · rintro ⟨text, htext, hread⟩
    cases hparse : Value.parse kind text with
    | error e =>
      rw [hparse] at hread
      cases hread
    | ok w =>
      rw [hparse] at hread
      obtain rfl := Option.some.inj hread
      exact (hmem (Value.isFinite_of_parse hparse).2).2 ⟨text, htext, hparse⟩

/-- Every text of a snapshot that was read stands under a kind and is a value of it. -/
theorem exists_value_of_parse (h : s.parse = .ok ms) {type name text : String}
    (htext : s.lookup? type name = some text) :
    ∃ kind : Kind, kind.name = type ∧ ∃ v, Value.parse kind text = .ok v := by
  cases htype : Kind.ofName? type with
  | none =>
    rcases Option.bind_eq_some_iff.1 htext with ⟨d, hd, -⟩
    refine absurd h (FaultAt.type hd fun kind hname => ?_).parse_ne_ok
    rw [← hname, Kind.ofName?_name] at htype
    cases htype
  | some kind =>
    obtain rfl := Kind.ofName?_eq_some_iff.1 htype
    refine ⟨kind, rfl, ?_⟩
    cases hread : Value.parse kind text with
    | ok v => exact ⟨v, rfl⟩
    | error e => exact absurd h (FaultAt.value htext hread).parse_ne_ok

/-- What was read from a snapshot is read again from the snapshot that is built of it. -/
theorem parse_ofMetrics_of_parse (h : s.parse = .ok ms) : (ofMetrics ms).parse = .ok ms := by
  have hsound := sound_of_parse h
  rcases hsound.parse_ofMetrics with ⟨ns, hparse, hns, hsame⟩
  have heq : ns = ms := (inOrder_of_parse hparse).eq_of_mem_iff (inOrder_of_parse h) fun m => by
    rw [← hns.distinct.find?_eq_some_iff, ← hsame, hsound.distinct.find?_eq_some_iff]
  rw [hparse, heq]

/-- What is built from the metrics of a snapshot is its normal form. -/
theorem isNormalFormOf_of_parse (h : s.parse = .ok ms) : IsNormalFormOf (ofMetrics ms) s ms := by
  have hcanonical (kind : Kind) (name : String) :
      lookup? (ofMetrics ms) kind.name name = (s.lookup? kind.name name).bind fun text =>
        (Value.parse kind text).toOption.map Value.canonical := by
    rw [lookup?_ofMetrics (distinct_of_parse h), Kind.ofName?_name, Option.bind_some,
      find?_of_parse h, Option.map_bind]
    rfl
  have hkeys (type name : String) :
      (lookup? (ofMetrics ms) type name).isSome = (s.lookup? type name).isSome := by
    cases htext : s.lookup? type name with
    | some text =>
      rcases exists_value_of_parse h htext with ⟨kind, rfl, v, hread⟩
      rw [hcanonical, htext, Option.bind_some, hread]
      rfl
    | none =>
      rw [lookup?_ofMetrics (distinct_of_parse h)]
      cases htype : Kind.ofName? type with
      | none => rfl
      | some kind =>
        obtain rfl := Kind.ofName?_eq_some_iff.1 htype
        rw [Option.bind_some, find?_of_parse h, htext]
        rfl
  refine ⟨hcanonical, hkeys, fun type => ⟨fun htype => ?_, ?_⟩, parse_ofMetrics_of_parse h, rfl⟩
  · rcases Option.isSome_iff_exists.1 htype with ⟨d, hd⟩
    rcases isFilled_ofMetrics ms type d hd with ⟨name, text, hname⟩
    refine ⟨name, ?_⟩
    rw [← hkeys, lookup?, hd, Option.bind_some, hname]
    rfl
  · rintro ⟨name, hname⟩
    rw [← hkeys] at hname
    exact Option.isSome_of_isSome_bind hname

/-- Metrics are read back from their snapshot as the last ones of their keys, in order; of a
snapshot from elsewhere the first fault decides, and without one it is built again in its
normal form. -/
theorem parse_normal :
    (∀ ms : List Metric, Content.IsFinite ms → ∃ ns, (ofMetrics ms).parse = .ok ns ∧
      Metric.InOrder ns ∧ ∀ m, m ∈ ns ↔ m.IsLastIn ms) ∧
    ∀ s : Snapshot,
      ((∃ e, s.parse = .error e) ↔ ∃ type name e, FaultAt s type name e) ∧
      (∀ e, s.parse = .error e ↔ ∃ type name, IsFirstFault s type name e) ∧
      ∀ ms, s.parse = .ok ms → Metric.InOrder ms ∧ IsNormalFormOf (ofMetrics ms) s ms :=
  ⟨fun _ => parse_ofMetrics, fun _ => ⟨exists_parse_eq_error_iff, fun _ => parse_eq_error_iff,
    fun _ h => ⟨inOrder_of_parse h, isNormalFormOf_of_parse h⟩⟩⟩

/-- A counter that is listed twice, a total with a sign, zeros and blanks beside a type with
nothing under it, and a snapshot with three faults. -/
theorem parse_normal_of_repeats :
    let ms : List Metric :=
      [⟨"b", .total (.clamp 1)⟩, ⟨"a", .reading (.zero true)⟩, ⟨"b", .total (.clamp 7)⟩]
    let s : Snapshot := (withType .empty "gauge").put "counter" "b" "\u2003+007 "
    let faulty : Snapshot :=
      ((put .empty "gauge" "g" "x").put "counter" "c" "1.5").withType "histogram"
    (Content.IsFinite ms ∧ ∃ ns, (ofMetrics ms).parse = .ok ns ∧ Metric.InOrder ns ∧
      ⟨"b", .total (.clamp 7)⟩ ∈ ns ∧ ⟨"b", .total (.clamp 1)⟩ ∉ ns) ∧
    (s.parse = .ok [⟨"b", .total (.clamp 7)⟩] ∧
      IsNormalFormOf (ofMetrics [⟨"b", .total (.clamp 7)⟩]) s [⟨"b", .total (.clamp 7)⟩]) ∧
    ∃ type name, IsFirstFault faulty type name (.unreadable "counter" "1.5") := by
  intro ms s faulty
  have hfinite : Content.IsFinite ms := by
    have hall : (ms.all fun m => m.value.isFinite) = true := by decide
    exact fun m hm => List.all_eq_true.1 hall m hm
  have hparse : s.parse = .ok [⟨"b", .total (.clamp 7)⟩] := by decide +kernel
  have hfault : faulty.parse = .error (.unreadable "counter" "1.5") := by decide +kernel
  refine ⟨⟨hfinite, ?_⟩, ⟨hparse, ((parse_normal.2 s).2.2 _ hparse).2⟩,
    ((parse_normal.2 faulty).2.1 _).1 hfault⟩
  rcases parse_normal.1 ms hfinite with ⟨ns, hns, horder, hlast⟩
  refine ⟨ns, hns, horder, (hlast _).2 (Metric.isLastIn_iff.2 (by decide)), fun hmem => ?_⟩
  exact absurd (Metric.isLastIn_iff.1 ((hlast _).1 hmem)) (by decide)

end Snapshot

end MetricRelay
