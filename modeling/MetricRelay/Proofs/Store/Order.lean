import Mathlib.Data.List.FinRange
import Mathlib.Data.List.Sort
import MetricRelay.Proofs.Service.Updates
import MetricRelay.Proofs.Store.Restorable
import MetricRelay.Proofs.Store.Running

/-!
# The order of updates

Updates may come in one batch or in two, and updates of different keys may come in
any order: the store comes to show the same, and each update is answered the same.
Updates of one total may change places too, as long as no sum stops at the ends of
the range.  All this holds after any calls and any changes of cells through handles.

Main definitions:

- `reorder`: a list with its items at other places.
- `Session.Used`: a store after any calls and changes.
- `Session.Orderly`: what is known of the order of updates.

Main results:

- `Content.Same.add_reorder`: updates of different keys may change places.
- `Session.Used.orderly`: the order of updates in a store.
-/

namespace MetricRelay

/-! ## Lists in another order -/

section Reorder

variable {α : Type}

/-- A list with its items at other places: at each place stands the item from the
place that `σ` says. -/
def reorder (xs : List α) (σ : Equiv.Perm (Fin xs.length)) : List α :=
  List.ofFn fun i => xs.get (σ i)

theorem length_reorder (xs : List α) (σ : Equiv.Perm (Fin xs.length)) :
    (reorder xs σ).length = xs.length :=
  List.length_ofFn

/-- No item is lost or gained in another order. -/
theorem perm_reorder (xs : List α) (σ : Equiv.Perm (Fin xs.length)) : (reorder xs σ).Perm xs := by
  have hperm := σ.ofFn_comp_perm xs.get
  rw [List.ofFn_get] at hperm
  exact hperm

variable {n : Nat} {f : Fin n → α} {σ : Equiv.Perm (Fin n)}

/-- The first items of a list are those at the first places. -/
theorem take_ofFn (f : Fin n → α) (k : Nat) :
    (List.ofFn f).take k = ((List.finRange n).filter fun i => i.val < k).map f := by
  induction n generalizing k with
  | zero =>
    rw [List.ofFn_zero, List.take_nil, List.finRange_zero]
    rfl
  | succ n ih =>
    rw [List.ofFn_succ, List.finRange_succ]
    cases k with
    | zero =>
      rw [List.take_zero, List.filter_eq_nil_iff.2 fun i _ => by simp]
      rfl
    | succ k =>
      have hrest : (fun i : Fin (n + 1) => decide (i.val < k + 1)) ∘ Fin.succ =
          fun i : Fin n => decide (i.val < k) := by
        funext i
        simp
      rw [List.take_succ_cons, ih, List.filter_cons_of_pos (by simp), List.filter_map, hrest,
        List.map_cons, List.map_map]
      rfl

/-- Places that keep their order hold the same items, one after the other. -/
theorem map_filter_finRange (f : Fin n → α) (q : Fin n → Bool)
    (hkeeps : ∀ i j, i < j → q (σ i) = true → q (σ j) = true → σ i < σ j) :
    ((List.finRange n).filter fun i => q (σ i)).map (fun i => f (σ i)) =
      ((List.finRange n).filter q).map f := by
  have hplaces :
      ((List.finRange n).filter fun i => q (σ i)).map σ = (List.finRange n).filter q := by
    have hsorted : (((List.finRange n).filter fun i => q (σ i)).map σ).Pairwise (· < ·) := by
      rw [List.pairwise_map]
      have hplaces := (List.sortedLT_finRange n).pairwise.filter fun i => q (σ i)
      refine hplaces.imp_of_mem fun {i j} hi hj hlt => hkeeps i j hlt ?_ ?_
      · exact (List.mem_filter.1 hi).2
      · exact (List.mem_filter.1 hj).2
    have hsorted' := (List.sortedLT_finRange n).pairwise.filter q
    refine hsorted.eq_of_mem_iff hsorted' fun i => ?_
    simp only [List.mem_map, List.mem_filter, List.mem_finRange, true_and]
    constructor
    · rintro ⟨j, hj, rfl⟩
      exact hj
    · intro hi
      exact ⟨σ.symm i, by rwa [σ.apply_symm_apply], σ.apply_symm_apply i⟩
  rw [← hplaces, List.map_map]
  rfl

/-- Items of a class that keep their order come one after the other as before. -/
theorem filter_ofFn_perm (f : Fin n → α) {p : α → Bool}
    (hkeeps : ∀ i j, i < j → p (f (σ i)) = true → p (f (σ j)) = true → σ i < σ j) :
    (List.ofFn fun i => f (σ i)).filter p = (List.ofFn f).filter p := by
  rw [List.ofFn_eq_map, List.ofFn_eq_map, List.filter_map, List.filter_map]
  exact map_filter_finRange f (fun i => p (f i)) hkeeps

/-- Each item of a class that keeps its order comes after the same ones of its class. -/
theorem filter_take_ofFn_perm (f : Fin n → α) {p : α → Bool}
    (hkeeps : ∀ i j, i < j → p (f (σ i)) = true → p (f (σ j)) = true → σ i < σ j)
    {k : Fin n} (hk : p (f (σ k)) = true) :
    ((List.ofFn fun i => f (σ i)).take k).filter p = ((List.ofFn f).take (σ k)).filter p := by
  have hbefore (i : Fin n) : (p (f (σ i)) && decide (i.val < k.val)) =
      (p (f (σ i)) && decide ((σ i).val < (σ k).val)) := by
    cases hi : p (f (σ i)) with
    | false => rfl
    | true =>
      rw [Bool.true_and, Bool.true_and, decide_eq_decide]
      constructor
      · exact fun hlt => hkeeps i k hlt hi hk
      · intro hlt
        rcases Nat.lt_trichotomy i.val k.val with hik | hik | hki
        · exact hik
        · rw [Fin.ext hik] at hlt
          exact absurd hlt (Nat.lt_irrefl _)
        · exact absurd hlt (Nat.lt_asymm (hkeeps k i hki hk hi))
  have hmoved := map_filter_finRange f (fun i => p (f i) && decide (i.val < (σ k).val))
    fun i j hlt hi hj =>
      hkeeps i j hlt (Bool.and_eq_true_iff.1 hi).1 (Bool.and_eq_true_iff.1 hj).1
  rw [take_ofFn, take_ofFn, List.filter_map, List.filter_map, List.filter_filter,
    List.filter_filter]
  exact (congrArg (List.map fun i => f (σ i)) (List.filter_congr fun i _ => hbefore i)).trans hmoved

end Reorder

/-! ## Contents -/

namespace Content

section

open MetricRelay.Metric (valuesOf)

variable {n : Nat} {f : Fin n → Metric} {σ : Equiv.Perm (Fin n)} {c : Content}

/-- The updates of a key keep their order. -/
def KeepsOrder (f : Fin n → Metric) (σ : Equiv.Perm (Fin n)) (key : Key) : Prop :=
  ∀ i j, i < j → (f (σ i)).key = key → (f (σ j)).key = key → σ i < σ j

/-- Updates of a key that keep their order have the same values. -/
theorem KeepsOrder.valuesOf_eq {key : Key} (h : KeepsOrder f σ key) :
    valuesOf key (List.ofFn fun i => f (σ i)) = valuesOf key (List.ofFn f) := by
  unfold valuesOf
  rw [filter_ofFn_perm f fun i j hlt hi hj => h i j hlt (by simpa using hi) (by simpa using hj)]

/-- Before an update of a key that keeps its order, the same values have come in. -/
theorem KeepsOrder.valuesOf_take {k : Fin n} (h : KeepsOrder f σ (f (σ k)).key) :
    valuesOf (f (σ k)).key ((List.ofFn fun i => f (σ i)).take k) =
      valuesOf (f (σ k)).key ((List.ofFn f).take (σ k)) := by
  unfold valuesOf
  rw [filter_take_ofFn_perm f (fun i j hlt hi hj => h i j hlt (by simpa using hi)
    (by simpa using hj)) (by simp)]

/-- Updates that keep the order of each key come to the same values. -/
theorem same_add_perm (h : ∀ key, KeepsOrder f σ key) (c : Content) :
    (add (List.ofFn fun i => f (σ i)) c).2.Same (add (List.ofFn f) c).2 := by
  intro key
  rw [find?_add, find?_add, (h key).valuesOf_eq]

/-- Each of them has the same answer. -/
theorem getElem?_add_perm (h : ∀ key, KeepsOrder f σ key) (c : Content) (k : Fin n) :
    (add (List.ofFn fun i => f (σ i)) c).1[k.val]? = (add (List.ofFn f) c).1[(σ k).val]? := by
  have hk : k.val < (List.ofFn fun i => f (σ i)).length := by
    rw [List.length_ofFn]
    exact k.isLt
  have hk' : (σ k).val < (List.ofFn f).length := by
    rw [List.length_ofFn]
    exact (σ k).isLt
  have hanswer : k.val < (add (List.ofFn fun i => f (σ i)) c).1.length := by
    rw [length_add]
    exact hk
  have hanswer' : (σ k).val < (add (List.ofFn f) c).1.length := by
    rw [length_add]
    exact hk'
  have hbefore := (h (f (σ k)).key).valuesOf_take
  rw [List.getElem?_eq_getElem hanswer, List.getElem?_eq_getElem hanswer', getElem_add _ c hk,
    getElem_add _ c hk']
  simp only [List.getElem_ofFn, Fin.eta, hbefore]

/-- Totals may change places, as long as no sum stops at the ends of the range. -/
theorem same_add_perm_of_exact (h : ∀ key : Key, key.kind = .gauge → KeepsOrder f σ key)
    (hexact : ∀ key : Key, Value.AddsAllExactly (valuesOf key (List.ofFn f)) (c.find? key))
    (hexact' : ∀ key : Key,
      Value.AddsAllExactly (valuesOf key (List.ofFn fun i => f (σ i))) (c.find? key)) :
    (add (List.ofFn fun i => f (σ i)) c).2.Same (add (List.ofFn f) c).2 := by
  intro key
  rw [find?_add, find?_add]
  cases hkind : key.kind with
  | gauge => rw [(h key hkind).valuesOf_eq]
  | counter =>
    have hperm : (valuesOf key (List.ofFn fun i => f (σ i))).Perm (valuesOf key (List.ofFn f)) :=
      ((σ.ofFn_comp_perm f).filter _).map _
    refine Value.ontoAll_of_perm hperm ?_ ?_ (hexact' key) (hexact key)
    · intro v hv
      rw [Metric.kind_of_mem_valuesOf hv, hkind]
    · intro v hv
      rw [kind_of_find? hv, hkind]

end

end Content

/-! ## Sessions -/

namespace Session

/-- A store that was blank at first, and its host, after any calls with any results.
Clients make cells, give any of them back, and change them, also those of the store
that they were given.  A store that is not in memory may go on in another process. -/
inductive Used : Session → Prop
  | blank {store : Store} {host : Host} (blank : store.IsBlank host) : Used ⟨store, host⟩
  | alloc {s : Session} (m : Metric) (before : Used s) : Used ⟨s.store, (s.host.alloc m).2⟩
  | update {s : Session} (x : Handle) (u : Value) (before : Used s) :
      Used ⟨s.store, { s.host with heap := (s.host.heap.update x u).2 }⟩
  | flush {s : Session} (x : Handle) (before : Used s) :
      Used ⟨s.store, { s.host with heap := s.host.heap.flush x }⟩
  | acknowledge {s : Session} (x : Handle) (sent : Value) (before : Used s) :
      Used ⟨s.store, { s.host with heap := s.host.heap.acknowledge x sent }⟩
  | add {s : Session} {hs : List Handle} (before : Used s)
      (valid : ∀ x ∈ hs, x.index < s.host.heap.size) :
      Used ⟨(s.store.add s.host hs).2.1, (s.store.add s.host hs).2.2⟩
  | get {s : Session} (key : Key) (before : Used s) : Used ⟨s.store, (s.store.get s.host key).2⟩
  | snapshot {s : Session} (before : Used s) : Used ⟨s.store, (s.store.snapshot s.host).2⟩
  | restore {s : Session} (content : Snapshot) (before : Used s) :
      Used ⟨(s.store.restore s.host content).2.1, (s.store.restore s.host content).2.2⟩
  | restarted {s : Session} (before : Used s) (durable : ∀ m, s.store ≠ .memory m) :
      Used ⟨s.store, s.host.restarted⟩

section

variable {s : Session} {c : Content} {hs : List Handle}

/-- Whatever is done through handles, a store holds some metrics. -/
theorem Holds.of_keeps (h : s.Holds c) (hc : c.Sound) {heap : Heap}
    (hkeeps : s.host.heap.Keeps heap) :
    ∃ c', Holds ⟨s.store, { s.host with heap := heap }⟩ c' ∧ c'.Sound := by
  rcases s with ⟨store, host⟩
  cases store with
  | memory m => exact Memory.Holds.of_keeps h hc hkeeps
  | disabled => exact absurd h id
  | file f => exact ⟨c, h, hc⟩
  | database d => exact ⟨c, h, hc⟩
  | broken => exact absurd h id

/-- Whatever was done, a store holds finite metrics, each under a key of its own. -/
theorem Used.holds (h : Used s) : ∃ c, s.Holds c ∧ c.Sound := by
  induction h with
  | blank blank => exact ⟨[], holds_of_isBlank blank, Content.sound_nil⟩
  | alloc m _ ih =>
    rcases ih with ⟨c, hholds, hc⟩
    exact ⟨c, hholds.congr rfl fun _ _ _ hget => Heap.get?_alloc hget m, hc⟩
  | @update s x u _ ih =>
    rcases ih with ⟨c, hholds, hc⟩
    exact hholds.of_keeps hc (s.host.heap.keeps_update x u)
  | @flush s x _ ih =>
    rcases ih with ⟨c, hholds, hc⟩
    exact hholds.of_keeps hc (s.host.heap.keeps_flush x)
  | @acknowledge s x sent _ ih =>
    rcases ih with ⟨c, hholds, hc⟩
    exact hholds.of_keeps hc (s.host.heap.keeps_acknowledge x sent)
  | add _ valid ih =>
    rcases ih with ⟨c, hholds, hc⟩
    rcases hholds.exists_add hc valid with ⟨c', hholds', hc', -⟩
    exact ⟨c', hholds', hc'⟩
  | get key _ ih =>
    rcases ih with ⟨c, hholds, hc⟩
    exact ⟨c, (hholds.follows hc.finite (.get key)).holds, hc⟩
  | snapshot _ ih =>
    rcases ih with ⟨c, hholds, hc⟩
    exact ⟨c, (hholds.follows hc.finite .snapshot).holds, hc⟩
  | restore content _ ih =>
    rcases ih with ⟨c, hholds, hc⟩
    exact hholds.exists_restore hc content
  | restarted _ durable ih =>
    rcases ih with ⟨c, hholds, hc⟩
    exact ⟨c, hholds.restarted durable, hc⟩

end

/-! ## Batches -/

/-- Some cells, none of them of the store, have finite metrics. -/
def Offers (s : Session) (hs : List Handle) : Prop :=
  ∀ x ∈ hs, x ∉ s.store.handles ∧ ∃ n, s.host.heap.get? x = some n ∧ n.value.isFinite = true

/-- The session after a batch of updates. -/
def afterBatch (s : Session) (hs : List Handle) : Session :=
  ⟨(s.store.add s.host hs).2.1, (s.store.add s.host hs).2.2⟩

/-- What a batch of updates is answered. -/
def answersTo (s : Session) (hs : List Handle) : Outcome (List Metric) :=
  (s.store.add s.host hs).1.map (s.store.add s.host hs).2.2.getAll

/-- What the store of a session shows. -/
def content (s : Session) : Outcome Snapshot := (s.store.snapshot s.host).1

/-- Two sessions show the same. -/
def ShowsAs (s s' : Session) : Prop := ∃ shown, s.content = .ok shown ∧ s'.content = .ok shown

/-- The updates of a key keep their order in a batch. -/
def KeepsOrder (s : Session) (hs : List Handle) (σ : Equiv.Perm (Fin hs.length)) (key : Key) :
    Prop :=
  Content.KeepsOrder (fun i => s.host.heap.get (hs.get i)) σ key

/-- Each update adds exactly to the value that the store shows after those before it. -/
def AddsExactly (s : Session) (hs : List Handle) : Prop :=
  ∀ i : Fin hs.length,
    ∀ v ∈ (s.afterBatch (hs.take i)).store.board (s.afterBatch (hs.take i)).host
        (s.host.heap.get (hs.get i)).key,
      v.AddsExactly (s.host.heap.get (hs.get i)).value

/-- Finite updates in cells of others may come in one batch or in two, and those of
different keys in any order: they are answered the same, and the store shows the same.
If no sum stops at the ends of the range, it shows the same in whatever order the
updates of totals come. -/
structure Orderly (s : Session) : Prop where
  composes : ∀ hs hs', s.Offers hs → s.Offers hs' → ∃ first second,
    s.answersTo hs = .ok first ∧ (s.afterBatch hs).answersTo hs' = .ok second ∧
      s.answersTo (hs ++ hs') = .ok (first ++ second) ∧
      (s.afterBatch (hs ++ hs')).ShowsAs ((s.afterBatch hs).afterBatch hs')
  commutes : ∀ hs (σ : Equiv.Perm (Fin hs.length)), s.Offers hs →
    (∀ key, s.KeepsOrder hs σ key) → ∃ answers moved,
      s.answersTo hs = .ok answers ∧ s.answersTo (reorder hs σ) = .ok moved ∧
      answers.length = hs.length ∧ moved.length = hs.length ∧
      (∀ i : Fin hs.length, moved[i.val]? = answers[(σ i).val]?) ∧
      (s.afterBatch hs).ShowsAs (s.afterBatch (reorder hs σ))
  totals : ∀ hs (σ : Equiv.Perm (Fin hs.length)), s.Offers hs →
    (∀ key : Key, key.kind = .gauge → s.KeepsOrder hs σ key) →
    s.AddsExactly hs → s.AddsExactly (reorder hs σ) →
      (s.afterBatch hs).ShowsAs (s.afterBatch (reorder hs σ))

section

variable {s : Session} {c : Content} {hs : List Handle}

/-- What is offered are finite metrics in cells of the client. -/
theorem Offers.given (h : s.Offers hs) :
    s.Given hs (s.host.getAll hs) ∧ ∀ n ∈ s.host.getAll hs, n.value.isFinite = true := by
  constructor
  · refine List.forall₂_map_right_iff.2 (List.forall₂_same.2 fun x hx => ?_)
    rcases h x hx with ⟨hmem, n, hget, -⟩
    rw [Heap.get_eq_of_get? hget]
    exact ⟨hget, hmem⟩
  · intro n hn
    rcases List.mem_map.1 hn with ⟨x, hx, rfl⟩
    rcases h x hx with ⟨-, n, hget, hfinite⟩
    rw [Heap.get_eq_of_get? hget]
    exact hfinite

theorem Offers.of_subset {hs' : List Handle} (h : s.Offers hs) (hsub : hs' ⊆ hs) : s.Offers hs' :=
  fun x hx => h x (hsub hx)

/-- A batch does to a store what its metrics do to the content. -/
structure Takes (s : Session) (c : Content) (hs : List Handle) : Prop where
  answers : s.answersTo hs = .ok (Content.add (s.host.getAll hs) c).1
  holds : (s.afterBatch hs).Holds (Content.add (s.host.getAll hs) c).2
  sound : (Content.add (s.host.getAll hs) c).2.Sound
  spares : Spares s (s.afterBatch hs)

/-- A store takes whatever is offered. -/
theorem Holds.takes (h : s.Holds c) (hc : c.Sound) (hoffers : s.Offers hs) : s.Takes c hs := by
  rcases hoffers.given with ⟨hgiven, hfinite⟩
  rcases h.add hc.finite hgiven hfinite with ⟨answers, s', hadd, hholds, hanswers, hspares⟩
  have hafter : s.afterBatch hs = s' := by
    rw [afterBatch, hadd]
  refine ⟨?_, ?_, hc.add hfinite, ?_⟩
  · rw [answersTo, hadd]
    exact congrArg Except.ok hanswers
  · rw [hafter]
    exact hholds
  · rw [hafter]
    exact hspares

/-- A store that keeps its kind reads as before. -/
theorem Spares.reads_eq {s' : Session} (h : Spares s s') : s'.store.reads = s.store.reads := by
  cases h with
  | memory disk cells => rfl
  | other others cells => rfl

/-- What the store spares is still offered. -/
theorem Spares.offers {s' : Session} (h : Spares s s') (hoffers : s.Offers hs) : s'.Offers hs := by
  intro x hx
  rcases hoffers x hx with ⟨hmem, n, hget, hfinite⟩
  rcases h.cells hget hmem with ⟨hget', hmem'⟩
  exact ⟨hmem', n, hget', hfinite⟩

/-- What the store spares still shows the same metrics. -/
theorem Spares.getAll_eq {s' : Session} (h : Spares s s') (hoffers : s.Offers hs) :
    s'.host.getAll hs = s.host.getAll hs := by
  refine List.map_congr_left fun x hx => ?_
  rcases hoffers x hx with ⟨hmem, n, hget, -⟩
  rw [Heap.get_eq_of_get? hget, Heap.get_eq_of_get? (h.cells hget hmem).1]

/-- Stores of one form that hold the same values show the same. -/
theorem Holds.showsAs {s s' : Session} {c c' : Content} (h : s.Holds c) (h' : s'.Holds c')
    (hc : c.Sound) (hc' : c'.Sound) (hsame : c.Same c') (hreads : s'.store.reads = s.store.reads) :
    s.ShowsAs s' := by
  rcases h.snapshot hc.finite with ⟨host, hsnapshot, -⟩
  rcases h'.snapshot hc'.finite with ⟨host', hsnapshot', -⟩
  refine ⟨s.store.reads (Snapshot.ofMetrics c), ?_, ?_⟩
  · rw [content, hsnapshot]
  · rw [content, hsnapshot', hreads, hsame.ofMetrics_eq hc.distinct hc'.distinct]

/-- What a store shows for a total adds as the total itself. -/
theorem addsExactly_readValue (store : Store) (v w : Value) :
    (store.readValue v).AddsExactly w ↔ v.AddsExactly w := by
  cases store with
  | database d => cases v <;> cases w <;> rfl
  | memory m => rfl
  | disabled => rfl
  | file f => rfl
  | broken => rfl

/-- Updates that add exactly to what the store shows add exactly to what it holds. -/
theorem Holds.addsAllExactly (h : s.Holds c) (hc : c.Sound) (hoffers : s.Offers hs)
    (hexact : s.AddsExactly hs) (key : Key) :
    Value.AddsAllExactly (Metric.valuesOf key (s.host.getAll hs)) (c.find? key) := by
  refine Content.addsAllExactly_of_take fun i hi hkey u hu => ?_
  have hlength : i < hs.length := by
    rw [Host.getAll, List.length_map] at hi
    exact hi
  have hfirst := h.takes hc (hoffers.of_subset (List.take_subset i hs))
  have htake : s.host.getAll (hs.take i) = (s.host.getAll hs).take i := List.map_take
  have hmetric : (s.host.getAll hs)[i] = s.host.heap.get (hs.get ⟨i, hlength⟩) :=
    List.getElem_map s.host.heap.get
  have hboard : (s.afterBatch (hs.take i)).store.board (s.afterBatch (hs.take i)).host key =
      some ((s.afterBatch (hs.take i)).store.readValue u) := by
    rw [hfirst.holds.board_eq hfirst.sound.finite]
    show Content.find? (Store.readBack _ _) key = _
    rw [Store.find?_readBack, htake, hu]
    rfl
  rw [hmetric] at hkey ⊢
  have hone := hexact ⟨i, hlength⟩ ((s.afterBatch (hs.take i)).store.readValue u)
  rw [hkey] at hone
  exact (addsExactly_readValue _ u _).1 (hone hboard)

/-- The metrics in some cells, by the places of the cells. -/
theorem getAll_eq_ofFn (s : Session) (hs : List Handle) :
    s.host.getAll hs = List.ofFn fun i => s.host.heap.get (hs.get i) := by
  conv_lhs => rw [Host.getAll, ← List.ofFn_get hs, List.map_ofFn]
  rfl

/-- Handles in another order show their metrics in that order. -/
theorem getAll_reorder (s : Session) (hs : List Handle) (σ : Equiv.Perm (Fin hs.length)) :
    s.host.getAll (reorder hs σ) = List.ofFn fun i => s.host.heap.get (hs.get (σ i)) := by
  rw [Host.getAll, reorder, List.map_ofFn]
  rfl

theorem Offers.reorder (h : s.Offers hs) (σ : Equiv.Perm (Fin hs.length)) :
    s.Offers (reorder hs σ) :=
  h.of_subset (perm_reorder hs σ).subset

/-- Updates may come in two batches. -/
theorem Holds.composes (h : s.Holds c) (hc : c.Sound) {hs' : List Handle} (hoffers : s.Offers hs)
    (hoffers' : s.Offers hs') : ∃ first second,
      s.answersTo hs = .ok first ∧ (s.afterBatch hs).answersTo hs' = .ok second ∧
      s.answersTo (hs ++ hs') = .ok (first ++ second) ∧
      (s.afterBatch (hs ++ hs')).ShowsAs ((s.afterBatch hs).afterBatch hs') := by
  have hboth : s.Offers (hs ++ hs') := fun x hx => (List.mem_append.1 hx).elim (hoffers x) (hoffers' x)
  have hall := h.takes hc hboth
  have hfirst := h.takes hc hoffers
  have hsecond := hfirst.holds.takes hfirst.sound (hfirst.spares.offers hoffers')
  have hgiven : s.host.getAll (hs ++ hs') = s.host.getAll hs ++ s.host.getAll hs' :=
    List.map_append
  have hadd := Content.add_append (s.host.getAll hs) (s.host.getAll hs') c
  have hanswers := hall.answers
  have hholds := hall.holds
  have hsound := hall.sound
  have hanswers' := hsecond.answers
  have hholds' := hsecond.holds
  have hsound' := hsecond.sound
  rw [hgiven, hadd] at hanswers hholds hsound
  rw [hfirst.spares.getAll_eq hoffers'] at hanswers' hholds' hsound'
  refine ⟨_, _, hfirst.answers, hanswers', hanswers, ?_⟩
  exact hholds.showsAs hholds' hsound hsound' (.refl _)
    ((hsecond.spares.reads_eq.trans hfirst.spares.reads_eq).trans hall.spares.reads_eq.symm)

/-- A batch in two orders that come to the same values. -/
theorem Takes.showsAs {hs' : List Handle} (h : s.Takes c hs) (h' : s.Takes c hs')
    (hsame : (Content.add (s.host.getAll hs) c).2.Same (Content.add (s.host.getAll hs') c).2) :
    (s.afterBatch hs).ShowsAs (s.afterBatch hs') :=
  h.holds.showsAs h'.holds h.sound h'.sound hsame (h'.spares.reads_eq.trans h.spares.reads_eq.symm)

/-- Updates that keep the order of each key may change places. -/
theorem Holds.commutes (h : s.Holds c) (hc : c.Sound) (hoffers : s.Offers hs)
    {σ : Equiv.Perm (Fin hs.length)} (hkeeps : ∀ key, s.KeepsOrder hs σ key) : ∃ answers moved,
      s.answersTo hs = .ok answers ∧ s.answersTo (reorder hs σ) = .ok moved ∧
      answers.length = hs.length ∧ moved.length = hs.length ∧
      (∀ i : Fin hs.length, moved[i.val]? = answers[(σ i).val]?) ∧
      (s.afterBatch hs).ShowsAs (s.afterBatch (reorder hs σ)) := by
  have htakes := h.takes hc hoffers
  have hmoved := h.takes hc (hoffers.reorder σ)
  refine ⟨_, _, htakes.answers, hmoved.answers, ?_, ?_, fun i => ?_, htakes.showsAs hmoved ?_⟩
  · rw [Content.length_add, Host.getAll, List.length_map]
  · rw [Content.length_add, Host.getAll, List.length_map, length_reorder]
  · rw [s.getAll_reorder hs σ, s.getAll_eq_ofFn hs]
    exact Content.getElem?_add_perm hkeeps c i
  · rw [s.getAll_reorder hs σ, s.getAll_eq_ofFn hs]
    exact (Content.same_add_perm hkeeps c).symm

/-- Updates of totals may change places, as long as no sum stops at the ends of the
range. -/
theorem Holds.totals (h : s.Holds c) (hc : c.Sound) (hoffers : s.Offers hs)
    {σ : Equiv.Perm (Fin hs.length)}
    (hkeeps : ∀ key : Key, key.kind = .gauge → s.KeepsOrder hs σ key)
    (hexact : s.AddsExactly hs) (hexact' : s.AddsExactly (reorder hs σ)) :
    (s.afterBatch hs).ShowsAs (s.afterBatch (reorder hs σ)) := by
  have hsums := h.addsAllExactly hc hoffers hexact
  have hsums' := h.addsAllExactly hc (hoffers.reorder σ) hexact'
  refine (h.takes hc hoffers).showsAs (h.takes hc (hoffers.reorder σ)) ?_
  rw [s.getAll_eq_ofFn hs] at hsums ⊢
  rw [s.getAll_reorder hs σ] at hsums' ⊢
  exact (Content.same_add_perm_of_exact hkeeps hsums hsums').symm

/-- In a store that was used in any way, updates may come in one batch or in two, and
in any order that keeps the updates of a key in order. -/
theorem Used.orderly (h : Used s) : s.Orderly := by
  rcases h.holds with ⟨c, hholds, hc⟩
  exact {
    composes := fun hs hs' hoffers hoffers' => hholds.composes hc hoffers hoffers'
    commutes := fun hs σ hoffers hkeeps => hholds.commutes hc hoffers hkeeps
    totals := fun hs σ hoffers hkeeps hexact hexact' => hholds.totals hc hoffers hkeeps hexact hexact' }

/-- A store in memory whose total was acknowledged through its own cell takes a total
and a reading in either order. -/
theorem orderly_of_acknowledged_cell :
    let given := ((Host.ofDisk (.withDirectory ["data"])).allocAll
      [⟨"polls", .total (.clamp 7)⟩, ⟨"polls", .reading (.zero true)⟩]).2
    let added := (Store.memory .empty).add given [⟨0⟩, ⟨1⟩]
    let s : Session := ⟨added.2.1, { added.2.2 with
      heap := added.2.2.heap.acknowledge ⟨2⟩ (.total (.clamp 9)) }⟩
    s.Orderly ∧ s.Offers [⟨0⟩, ⟨1⟩] ∧
      (s.afterBatch [⟨0⟩, ⟨1⟩]).ShowsAs (s.afterBatch [⟨1⟩, ⟨0⟩]) ∧
      (s.afterBatch [⟨1⟩, ⟨0⟩]).content.map Snapshot.triples =
        .ok [("counter", "polls", "5"), ("gauge", "polls", "-0")] := by
  intro given added s
  have hempty : (Store.memory .empty).IsBlank (.ofDisk (.withDirectory ["data"])) := rfl
  have hgiven : Used ⟨.memory .empty, given⟩ := .alloc _ (.alloc _ (.blank hempty))
  have hadded : Used ⟨added.2.1, added.2.2⟩ := hgiven.add (by decide)
  have horderly : s.Orderly := Used.orderly (hadded.acknowledge ⟨2⟩ _)
  have hoffers : s.Offers [⟨0⟩, ⟨1⟩] := by
    intro x hx
    simp only [List.mem_cons, List.not_mem_nil, or_false] at hx
    rcases hx with rfl | rfl
    · exact ⟨by decide, ⟨"polls", .total (.clamp 7)⟩, by decide, rfl⟩
    · exact ⟨by decide, ⟨"polls", .reading (.zero true)⟩, by decide, rfl⟩
  have hkinds : ∀ i j : Fin 2, i < j →
      (s.host.heap.get ([⟨0⟩, ⟨1⟩].get (Equiv.swap 0 1 i))).key ≠
        (s.host.heap.get ([⟨0⟩, ⟨1⟩].get (Equiv.swap 0 1 j))).key := by
    decide
  have hkeeps : ∀ key, s.KeepsOrder [⟨0⟩, ⟨1⟩] (Equiv.swap 0 1) key := fun key i j hlt hi hj =>
    absurd (hi.trans hj.symm) (hkinds i j hlt)
  rcases horderly.commutes _ _ hoffers hkeeps with ⟨_, _, -, -, -, -, -, hshows⟩
  exact ⟨horderly, hoffers, hshows, by decide +kernel⟩

end

end Session

end MetricRelay
