import Mathlib.Algebra.BigOperators.Group.List.Basic
import Mathlib.Algebra.Group.Int.Defs
import MetricRelay.Proofs.Http.Board
import MetricRelay.Proofs.Metric.Totals

/-!
# What the updates of a key come to

Updates of different keys do not notice each other.  What a key holds after some
updates depends on what it held before and on its own updates, in their order; the
order of totals makes no difference as long as no sum stops at the ends of the range.

Main definitions:

- `Metric.valuesOf`: the values that some updates have for a key.
- `Value.ontoAll`: what a key holds after several values have come in.
- `Value.AddsAllExactly`: no sum stops at the ends of the range.

Main results:

- `Content.find?_add`: what a key holds after some updates.
- `Content.add_append`: updates may come in two parts.
- `Value.ontoAll_of_perm`: totals may come in any order.
-/

namespace MetricRelay

/-! ## Values of a key -/

namespace Metric

/-- The values that some updates have for a key, in their order. -/
def valuesOf (key : Key) (ms : List Metric) : List Value :=
  (ms.filter fun m => m.key = key).map Metric.value

/-- The values of a key, from the first metric on. -/
theorem valuesOf_cons (key : Key) (m : Metric) (ms : List Metric) :
    valuesOf key (m :: ms) = if m.key = key then m.value :: valuesOf key ms else valuesOf key ms := by
  unfold valuesOf
  by_cases h : m.key = key
  · rw [List.filter_cons_of_pos (by simpa using h), if_pos h]
    rfl
  · rw [List.filter_cons_of_neg (by simpa using h), if_neg h]

/-- The values of a key have its kind. -/
theorem kind_of_mem_valuesOf {key : Key} {ms : List Metric} {v : Value}
    (h : v ∈ valuesOf key ms) : v.kind = key.kind := by
  rcases List.mem_map.1 h with ⟨m, hm, rfl⟩
  have hkey : m.key = key := by simpa using (List.mem_filter.1 hm).2
  rw [← hkey]
  rfl

end Metric

namespace Value

/-- What a key holds after several values have come in, one after the other. -/
def ontoAll (vs : List Value) (kept : Option Value) : Option Value :=
  vs.foldl (fun kept v => some (v.onto kept)) kept

@[simp]
theorem ontoAll_cons (v : Value) (vs : List Value) (kept : Option Value) :
    ontoAll (v :: vs) kept = ontoAll vs (some (v.onto kept)) := rfl

/-! ## Totals in any order -/

/-- Values come in one after the other, and no sum stops at the ends of the range. -/
def AddsAllExactly : List Value → Option Value → Prop
  | [], _ => True
  | v :: vs, kept => (∀ u ∈ kept, u.AddsExactly v) ∧ AddsAllExactly vs (some (v.onto kept))

/-- What may be under a key counts. -/
def held (kept : Option Value) : Int := (kept.map amount).getD 0

/-- Away from the ends of the range a counter holds exactly what is added. -/
theorem held_onto {v : Value} {kept : Option Value} (hv : v.kind = .counter)
    (hkind : ∀ u ∈ kept, u.kind = .counter) (h : ∀ u ∈ kept, u.AddsExactly v) :
    held (some (v.onto kept)) = held kept + v.amount := by
  rcases exists_of_kind_counter hv with ⟨d, rfl⟩
  cases kept with
  | none => exact (Int.zero_add d.val).symm
  | some u =>
    rcases exists_of_kind_counter (hkind u rfl) with ⟨n, rfl⟩
    exact h (total n) rfl

/-- Totals that add exactly come to the sum of what they count. -/
theorem held_ontoAll {vs : List Value} {kept : Option Value} (hvs : ∀ v ∈ vs, v.kind = .counter)
    (hkind : ∀ u ∈ kept, u.kind = .counter) (h : AddsAllExactly vs kept) :
    held (ontoAll vs kept) = held kept + (vs.map amount).sum := by
  induction vs generalizing kept with
  | nil => exact (Int.add_zero _).symm
  | cons v vs ih =>
    have hv := hvs v List.mem_cons_self
    have hnext : ∀ u ∈ some (v.onto kept), u.kind = .counter := by
      rintro u ⟨⟩
      rw [kind_onto, hv]
    have hrest := ih (fun w hw => hvs w (List.mem_cons_of_mem v hw)) hnext h.2
    rw [ontoAll_cons, hrest, held_onto hv hkind h.1, List.map_cons, List.sum_cons, Int.add_assoc]

/-- There is a value if there was one, or if there are updates. -/
theorem ontoAll_isSome (vs : List Value) (kept : Option Value) :
    (ontoAll vs kept).isSome = (!vs.isEmpty || kept.isSome) := by
  induction vs generalizing kept with
  | nil => rfl
  | cons v vs ih =>
    rw [ontoAll_cons, ih, Option.isSome_some, Bool.or_true]
    rfl

/-- Updates of one kind leave that kind. -/
theorem kind_of_ontoAll {kind : Kind} {vs : List Value} {kept : Option Value}
    (hvs : ∀ v ∈ vs, v.kind = kind) (hkind : ∀ u ∈ kept, u.kind = kind) :
    ∀ u ∈ ontoAll vs kept, u.kind = kind := by
  induction vs generalizing kept with
  | nil => exact hkind
  | cons v vs ih =>
    refine ih (fun w hw => hvs w (List.mem_cons_of_mem v hw)) ?_
    rintro u ⟨⟩
    rw [kind_onto, hvs v List.mem_cons_self]

/-- Two totals that count the same are the same. -/
theorem eq_of_held {x y : Option Value} (hx : ∀ u ∈ x, u.kind = .counter)
    (hy : ∀ u ∈ y, u.kind = .counter) (hsome : x.isSome = y.isSome) (h : held x = held y) :
    x = y := by
  cases x with
  | none =>
    cases y with
    | none => rfl
    | some v => cases hsome
  | some u =>
    cases y with
    | none => cases hsome
    | some v =>
      rcases exists_of_kind_counter (hx u rfl) with ⟨n, rfl⟩
      rcases exists_of_kind_counter (hy v rfl) with ⟨d, rfl⟩
      have hval : n.val = d.val := h
      cases n
      cases d
      cases hval
      rfl

/-- Totals may come in any order, as long as no sum stops at the ends of the range. -/
theorem ontoAll_of_perm {vs ws : List Value} {kept : Option Value} (hperm : vs.Perm ws)
    (hvs : ∀ v ∈ vs, v.kind = .counter) (hkind : ∀ u ∈ kept, u.kind = .counter)
    (hv : AddsAllExactly vs kept) (hw : AddsAllExactly ws kept) :
    ontoAll vs kept = ontoAll ws kept := by
  have hws : ∀ w ∈ ws, w.kind = .counter := fun w hmem => hvs w (hperm.mem_iff.2 hmem)
  refine eq_of_held (kind_of_ontoAll hvs hkind) (kind_of_ontoAll hws hkind) ?_ ?_
  · rw [ontoAll_isSome, ontoAll_isSome, hperm.isEmpty_eq]
  · rw [held_ontoAll hvs hkind hv, held_ontoAll hws hkind hw, (hperm.map amount).sum_eq]

end Value

/-! ## Contents -/

namespace Content

open MetricRelay.Metric (valuesOf)

/-- A key holds what its own updates come to. -/
theorem find?_add (ms : List Metric) (c : Content) (key : Key) :
    (add ms c).2.find? key = Value.ontoAll (valuesOf key ms) (c.find? key) := by
  induction ms generalizing c with
  | nil => rfl
  | cons m ms ih =>
    show (add ms (c.put (c.next m))).2.find? key = _
    rw [ih, find?_put, key_next, Metric.valuesOf_cons]
    by_cases h : m.key = key
    · rw [if_pos h, if_pos h, Value.ontoAll_cons, ← h]
      rfl
    · rw [if_neg h, if_neg h]

/-- Each answer is what its update comes to after those before it. -/
theorem getElem_add (ms : List Metric) (c : Content) {i : Nat} (hi : i < ms.length)
    (hi' : i < (add ms c).1.length) :
    (add ms c).1[i] = ⟨ms[i].name,
      ms[i].value.onto (Value.ontoAll (valuesOf ms[i].key (ms.take i)) (c.find? ms[i].key))⟩ := by
  have hfind := find?_add (ms.take i) c ms[i].key
  rw [← hfind]
  clear hfind
  induction ms generalizing c i with
  | nil => cases hi
  | cons m ms ih =>
    cases i with
    | zero => rfl
    | succ i => exact ih (c.put (c.next m)) (Nat.lt_of_succ_lt_succ hi) (Nat.lt_of_succ_lt_succ hi')

/-- Updates may come in two parts. -/
theorem add_append (ms ns : List Metric) (c : Content) :
    add (ms ++ ns) c =
      ((add ms c).1 ++ (add ns (add ms c).2).1, (add ns (add ms c).2).2) := by
  induction ms generalizing c with
  | nil => rfl
  | cons m ms ih =>
    rw [List.cons_append, add, ih]
    rfl

/-- The sums under a key are exact if each of its updates adds exactly to what the
updates before it come to. -/
theorem addsAllExactly_of_take {ms : List Metric} {c : Content} {key : Key}
    (h : ∀ i (hi : i < ms.length), ms[i].key = key →
      ∀ u ∈ (add (ms.take i) c).2.find? key, u.AddsExactly ms[i].value) :
    Value.AddsAllExactly (valuesOf key ms) (c.find? key) := by
  induction ms generalizing c with
  | nil => trivial
  | cons m ms ih =>
    have hrest : Value.AddsAllExactly (valuesOf key ms) ((c.put (c.next m)).find? key) :=
      ih fun i hi => h (i + 1) (Nat.succ_lt_succ hi)
    rw [find?_put, key_next] at hrest
    rw [Metric.valuesOf_cons]
    by_cases hkey : m.key = key
    · rw [if_pos hkey] at hrest ⊢
      refine ⟨h 0 (Nat.succ_pos _) hkey, ?_⟩
      rw [← hkey] at hrest ⊢
      exact hrest
    · rw [if_neg hkey] at hrest ⊢
      exact hrest

end Content

end MetricRelay
