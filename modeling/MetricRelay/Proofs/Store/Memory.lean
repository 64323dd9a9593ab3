import MetricRelay.Proofs.Metric.Cells
import MetricRelay.Proofs.Store.Content
import MetricRelay.Store.Memory

/-!
# The store in memory

The store in memory holds a list of metrics in cells of its own.  Every call is
traced to what it does to that list, and cells of others are left alone.

Main definitions:

- `Memory.Holds`: the content of a store in memory.
- `Memory.Spares`: cells of others keep what they show.

Main results:

- `Memory.add_of_isFinite`: finite updates are added one after the other.
- `Memory.add_of_not_isFinite`: up to the first one that is not finite.
- `Memory.restore_of_parse`: the content is that of a snapshot.
-/

namespace MetricRelay

namespace Memory

/-- The cells of a store. -/
def handles (m : Memory) : List Handle := m.cells.map Prod.snd

/-- A cell of a store under a key, and the metric that it shows. -/
def IsCellOf (heap : Heap) (x : Key × Handle) (n : Metric) : Prop :=
  x.1 = n.key ∧ heap.get? x.2 = some n

/-- A store has the metrics of a content in its cells, each in one of its own. -/
structure Holds (heap : Heap) (m : Memory) (c : Content) : Prop where
  cells : List.Forall₂ (IsCellOf heap) m.cells c
  nodup : m.handles.Nodup

/-- Cells that are not those of a store show what they showed before, and are not
those of the store afterwards. -/
def Spares (heap : Heap) (m : Memory) (heap' : Heap) (m' : Memory) : Prop :=
  ∀ h n, heap.get? h = some n → h ∉ m.handles → heap'.get? h = some n ∧ h ∉ m'.handles

theorem Spares.refl (heap : Heap) (m : Memory) : Spares heap m heap m :=
  fun _ _ hget hmem => ⟨hget, hmem⟩

theorem Spares.trans {heap heap' heap'' : Heap} {m m' m'' : Memory}
    (h : Spares heap m heap' m') (h' : Spares heap' m' heap'' m'') :
    Spares heap m heap'' m'' := by
  intro x n hget hmem
  rcases h x n hget hmem with ⟨hget', hmem'⟩
  exact h' x n hget' hmem'

/-- Fresh memory holds nothing. -/
theorem holds_empty (heap : Heap) : Holds heap .empty [] := ⟨.nil, .nil⟩

/-! ## Reading -/

section Reading

variable {heap : Heap} {m : Memory} {c : Content}

/-- A cell is found under each key of the content, and it shows the value. -/
theorem Holds.get?_eq (h : Holds heap m c) (key : Key) :
    match c.find? key with
    | some v => ∃ cell, m.get? key = some cell ∧ heap.get? cell = some ⟨key.name, v⟩
    | none => m.get? key = none := by
  rcases m with ⟨cells⟩
  have hcells := h.cells
  clear h
  unfold get?
  simp only at hcells ⊢
  induction hcells with
  | nil => rfl
  | @cons x n cells c hx _ ih =>
    rcases hx with ⟨hkey, hget⟩
    rcases x with ⟨k, cell⟩
    simp only at hkey hget ih ⊢
    rw [Content.find?_cons, List.lookup_cons]
    by_cases hn : n.key = key
    · rw [if_pos hn]
      refine ⟨cell, ?_, ?_⟩
      · rw [hkey, hn, beq_self_eq_true]
      · rw [← hn]
        exact hget
    · have hne : (key == k) = false := by
        rw [hkey]
        simpa using Ne.symm hn
      rw [if_neg hn, hne]
      exact ih

/-- The metrics of memory are what it holds. -/
theorem Holds.metrics_eq (h : Holds heap m c) : m.metrics heap = c := by
  rcases m with ⟨cells⟩
  have hcells := h.cells
  unfold metrics
  simp only at hcells ⊢
  clear h
  induction hcells with
  | nil => rfl
  | cons hx _ ih => rw [List.map_cons, ih, Heap.get_eq_of_get? hx.2]

/-- The snapshot of memory is that of what it holds. -/
theorem Holds.snapshot_eq (h : Holds heap m c) : m.snapshot heap = Snapshot.ofMetrics c := by
  rw [snapshot, h.metrics_eq]

/-- Each cell of a store is that of a metric of the content. -/
theorem exists_of_mem_cells {cells : List (Key × Handle)}
    (h : List.Forall₂ (IsCellOf heap) cells c) {x : Key × Handle} (hx : x ∈ cells) :
    ∃ n ∈ c, x.1 = n.key ∧ heap.get? x.2 = some n := by
  induction h with
  | nil => cases hx
  | @cons y n cells c hy _ ih =>
    rcases List.mem_cons.1 hx with rfl | hx
    · exact ⟨n, List.mem_cons_self, hy⟩
    · rcases ih hx with ⟨k, hk, hcell⟩
      exact ⟨k, List.mem_cons_of_mem _ hk, hcell⟩

/-- Cells that still show what they showed are cells of the same metrics. -/
theorem forall₂_isCellOf {heap' : Heap} {cells : List (Key × Handle)}
    (h : List.Forall₂ (IsCellOf heap) cells c)
    (hkeep : ∀ x ∈ cells, ∀ n, heap.get? x.2 = some n → heap'.get? x.2 = some n) :
    List.Forall₂ (IsCellOf heap') cells c :=
  ((List.forall₂_and_left _ _).2 ⟨hkeep, h⟩).imp fun _ n hx => ⟨hx.2.1, hx.1 n hx.2.2⟩

end Reading

/-! ## One update -/

section One

variable {heap : Heap} {m : Memory} {c : Content} {h : Handle} {n : Metric}

/-- An update of a cell in the store. -/
theorem Holds.set (hholds : Holds heap m c) {cell : Handle} (hn : m.get? n.key = some cell) :
    Holds (heap.set cell n) m (c.put n) := by
  refine ⟨?_, hholds.nodup⟩
  rcases m with ⟨cells⟩
  have hcells := hholds.cells
  have hnodup := hholds.nodup
  unfold get? at hn
  simp only [handles] at hcells hnodup hn ⊢
  clear hholds
  induction hcells with
  | nil => cases hn
  | @cons x k cells c hx hrest ih =>
    rcases hx with ⟨hkey, hget⟩
    rw [List.map_cons, List.nodup_cons] at hnodup
    rw [List.lookup_cons] at hn
    rw [Content.put]
    have hmem {y : Key × Handle} (hy : y ∈ cells) : y.2 ∈ cells.map Prod.snd :=
      List.mem_map_of_mem hy
    by_cases hk : k.key = n.key
    · rw [hkey, hk, beq_self_eq_true] at hn
      obtain rfl : x.2 = cell := Option.some.inj hn
      have hvalid := Heap.index_lt_of_get? hget
      rw [if_pos hk]
      refine .cons ⟨hkey.trans hk, ?_⟩ (forall₂_isCellOf hrest fun y hy j hj => ?_)
      · rw [Heap.get?_set hvalid, if_pos rfl]
      · have hne : y.2 ≠ x.2 := fun heq => hnodup.1 (heq ▸ hmem hy)
        rw [Heap.get?_set hvalid, if_neg hne]
        exact hj
    · have hne : (n.key == x.1) = false := by
        rw [hkey]
        simpa using Ne.symm hk
      rw [hne] at hn
      rw [if_neg hk]
      rcases List.lookup_eq_some_iff.1 hn with ⟨before, after, hsplit, -⟩
      have hcell : (n.key, cell) ∈ cells := by
        rw [hsplit]
        exact List.mem_append_right _ List.mem_cons_self
      have hxcell : x.2 ≠ cell := fun heq => hnodup.1 (heq ▸ hmem hcell)
      rcases exists_of_mem_cells hrest hcell with ⟨j, -, -, hj⟩
      refine .cons ⟨hkey, ?_⟩ (ih hn hnodup.2)
      rw [Heap.get?_set (Heap.index_lt_of_get? hj), if_neg hxcell]
      exact hget

/-- A new cell in the store. -/
theorem Holds.append (hholds : Holds heap m c) {cell : Handle} (hnone : m.get? n.key = none)
    (hcell : heap.get? cell = some n) (hfresh : cell ∉ m.handles) :
    Holds heap ⟨m.cells ++ [(n.key, cell)]⟩ (c.put n) := by
  have hput : c.put n = c ++ [n] := by
    rcases m with ⟨cells⟩
    have hcells := hholds.cells
    unfold get? at hnone
    simp only at hcells hnone
    clear hholds hfresh
    induction hcells with
    | nil => rfl
    | @cons x k cells c hx hrest ih =>
      rw [List.lookup_cons, hx.1] at hnone
      by_cases hk : k.key = n.key
      · rw [hk, beq_self_eq_true] at hnone
        cases hnone
      · have hne : (n.key == k.key) = false := by
          simpa using Ne.symm hk
        rw [hne] at hnone
        rw [Content.put, if_neg hk, ih hnone]
        rfl
  constructor
  · rw [hput]
    exact List.rel_append hholds.cells (.cons ⟨rfl, hcell⟩ .nil)
  · unfold handles at hfresh ⊢
    rw [List.map_append, List.nodup_append]
    refine ⟨hholds.nodup, List.nodup_singleton _, ?_⟩
    rintro x hx y hy rfl
    rw [List.map_singleton, List.mem_singleton] at hy
    rw [hy] at hx
    exact hfresh hx

theorem Holds.alloc (hholds : Holds heap m c) (k : Metric) : Holds (heap.alloc k).2 m c :=
  ⟨forall₂_isCellOf hholds.cells fun _ _ _ hj => Heap.get?_alloc hj k, hholds.nodup⟩

/-- The next cell is not one of memory. -/
theorem Holds.next_not_mem (hholds : Holds heap m c) : heap.next ∉ m.handles := by
  intro hmem
  rcases List.mem_map.1 hmem with ⟨x, hx, heq⟩
  rcases exists_of_mem_cells hholds.cells hx with ⟨j, -, -, hj⟩
  exact Heap.ne_next_of_get? hj heq

/-- A finite update is taken: its answer is a cell that is not in the store. -/
theorem addOne_of_isFinite (hholds : Holds heap m c) (hget : heap.get? h = some n)
    (hfinite : n.value.isFinite = true) :
    ∃ answer heap' m', addOne heap m h = (.ok answer, heap', m') ∧
      Holds heap' m' (c.put (c.next n)) ∧ heap'.get? answer = some (c.next n) ∧
      answer ∉ m'.handles ∧ Spares heap m heap' m' := by
  have hfound := hholds.get?_eq n.key
  have hkey := c.key_next n
  unfold addOne
  simp only [Heap.get_eq_of_get? hget]
  cases hkept : c.find? n.key with
  | none =>
    rw [hkept] at hfound
    simp only at hfound
    have hnext : c.next n = ⟨n.name, n.value.onto none⟩ := by rw [Content.next, hkept]
    have hadd := Metric.addTo_of_isFinite hfinite none fun v hv => by cases hv
    rw [← hnext] at hadd
    simp only [hfound, hadd, Heap.alloc_fst]
    have hcell := Heap.get?_alloc_next heap (c.next n)
    have hfresh : (heap.alloc (c.next n)).2.next ≠ heap.next := fun heq =>
      Heap.ne_next_of_get? hcell heq.symm
    have hstored := (hholds.alloc (c.next n)).append (n := c.next n) (hkey ▸ hfound) hcell
      hholds.next_not_mem
    rw [hkey] at hstored
    refine ⟨_, _, _, rfl, hstored.alloc (c.next n), Heap.get?_alloc_next _ _, ?_, ?_⟩
    · exact hstored.next_not_mem
    · intro x k hx hmem
      refine ⟨Heap.get?_alloc (Heap.get?_alloc hx _) _, fun hmem' => ?_⟩
      unfold handles at hmem hmem'
      rw [List.map_append, List.mem_append, List.map_singleton, List.mem_singleton] at hmem'
      rcases hmem' with hold | hnew
      · exact hmem hold
      · exact Heap.ne_next_of_get? hx hnew
  | some v =>
    rw [hkept] at hfound
    simp only at hfound
    rcases hfound with ⟨cell, hcell, hv⟩
    have hkind : v.kind = n.kind := Content.kind_of_find? hkept
    have hnext : c.next n = ⟨n.name, n.value.onto (some v)⟩ := by rw [Content.next, hkept]
    have hupdate : heap.update cell n.value = (.ok (c.next n).value, heap.set cell (c.next n)) := by
      have hadd := Metric.addTo_of_isFinite hfinite (some v) fun w hw => by
        cases hw
        exact hkind
      rw [← hnext] at hadd
      have hname : (⟨n.key.name, v⟩ : Metric).update n.value = .ok (c.next n) := hadd
      rw [Heap.update, Heap.get_eq_of_get? hv, hname]
    have hstored := hholds.set (n := c.next n) (hkey ▸ hcell)
    have hmetric : (⟨n.name, (c.next n).value⟩ : Metric) = c.next n := by rw [hnext]
    simp only [hcell, hupdate, Heap.alloc_fst, hmetric]
    refine ⟨_, _, _, rfl, hstored.alloc (c.next n), Heap.get?_alloc_next _ _, ?_, ?_⟩
    · exact hstored.next_not_mem
    · intro x k hx hmem
      have hne : x ≠ cell := by
        rintro rfl
        rcases List.lookup_eq_some_iff.1 hcell with ⟨before, after, hsplit, -⟩
        refine hmem (List.mem_map.2 ⟨(n.key, x), ?_, rfl⟩)
        rw [hsplit]
        exact List.mem_append_right _ List.mem_cons_self
      refine ⟨Heap.get?_alloc ?_ _, hmem⟩
      rw [Heap.get?_set (Heap.index_lt_of_get? hv), if_neg hne]
      exact hx

/-- An update that is not finite is refused and changes nothing. -/
theorem addOne_of_not_isFinite (hholds : Holds heap m c) (hget : heap.get? h = some n)
    (hfinite : n.value.isFinite = false) : addOne heap m h = (.error n.refusal, heap, m) := by
  have hfound := hholds.get?_eq n.key
  unfold addOne
  simp only [Heap.get_eq_of_get? hget]
  cases hkept : c.find? n.key with
  | none =>
    rw [hkept] at hfound
    simp only at hfound
    simp only [hfound, Metric.addTo_of_not_isFinite hfinite]
  | some v =>
    rw [hkept] at hfound
    simp only at hfound
    rcases hfound with ⟨cell, hcell, hv⟩
    have hupdate : heap.update cell n.value = (.error n.refusal, heap) := by
      have hadd := Metric.addTo_of_not_isFinite hfinite (some v)
      have hname : (⟨n.key.name, v⟩ : Metric).update n.value = .error n.refusal := hadd
      rw [Heap.update, Heap.get_eq_of_get? hv, hname]
    simp only [hcell, hupdate]

end One

/-! ## Several updates -/

section Several

variable {heap : Heap} {m : Memory} {c : Content}

/-- Cells of others that show some metrics. -/
def Given (heap : Heap) (m : Memory) (hs : List Handle) (ms : List Metric) : Prop :=
  List.Forall₂ (fun h n => heap.get? h = some n ∧ h ∉ m.handles) hs ms

theorem Given.spared {heap' : Heap} {m' : Memory} {hs : List Handle} {ms : List Metric}
    (h : Given heap m hs ms) (hspares : Spares heap m heap' m') : Given heap' m' hs ms :=
  h.imp fun x n hx => hspares x n hx.1 hx.2

/-- Fresh cells are cells of others. -/
theorem Holds.given_allocAll (h : Holds heap m c) (ms : List Metric) :
    Given (heap.allocAll ms).2 m (heap.allocAll ms).1 ms := by
  have hshows := heap.shows_allocAll ms
  unfold Heap.Shows at hshows
  have hfresh : ∀ cell ∈ (heap.allocAll ms).1, cell ∉ m.handles := by
    intro cell hcell hmem
    rcases List.mem_map.1 hmem with ⟨x, hx, rfl⟩
    rcases exists_of_mem_cells h.cells hx with ⟨n, -, -, hn⟩
    exact Heap.not_mem_allocAll hn ms hcell
  exact ((List.forall₂_and_left _ _).2 ⟨hfresh, hshows⟩).imp fun _ _ hx => ⟨hx.2, hx.1⟩

theorem Holds.allocAll (h : Holds heap m c) (ms : List Metric) : Holds (heap.allocAll ms).2 m c :=
  ⟨forall₂_isCellOf h.cells fun _ _ _ hj => Heap.get?_allocAll hj ms, h.nodup⟩

/-- Finite updates are added one after the other, and the answers are cells that
keep what each key held right after its update. -/
theorem add_of_isFinite (hholds : Holds heap m c) {hs : List Handle} {ms : List Metric}
    (hgiven : Given heap m hs ms) (hfinite : ∀ n ∈ ms, n.value.isFinite = true) :
    ∃ answers heap' m', add heap m hs = (.ok answers, heap', m') ∧
      Holds heap' m' (Content.add ms c).2 ∧ Given heap' m' answers (Content.add ms c).1 ∧
      Spares heap m heap' m' := by
  induction ms generalizing heap m c hs with
  | nil =>
    cases hgiven with
    | nil => exact ⟨[], heap, m, rfl, hholds, .nil, Spares.refl heap m⟩
  | cons n ms ih =>
    cases hgiven with
    | @cons h _ hs _ hn hrest =>
      rcases addOne_of_isFinite hholds hn.1 (hfinite n List.mem_cons_self) with
        ⟨answer, heap', m', hone, hholds', hanswer, hout, hspares⟩
      obtain ⟨answers, heap'', m'', hadd, hholds'', hanswers, hspares'⟩ :=
        ih hholds' (Given.spared hrest hspares) fun k hk => hfinite k (List.mem_cons_of_mem _ hk)
      refine ⟨answer :: answers, heap'', m'', ?_, hholds'', ?_, hspares.trans hspares'⟩
      · simp only [add, hone, hadd, Except.map]
      · exact .cons (hspares' answer _ hanswer hout) hanswers

/-- The first update that is not finite is refused, and those before it stay. -/
theorem add_of_not_isFinite (hholds : Holds heap m c) {hs : List Handle} {n : Metric}
    {before after : List Metric} (hgiven : Given heap m hs (before ++ n :: after))
    (hbefore : ∀ k ∈ before, k.value.isFinite = true) (hn : n.value.isFinite = false) :
    ∃ heap' m', add heap m hs = (.error n.refusal, heap', m') ∧
      Holds heap' m' (Content.add before c).2 := by
  induction before generalizing heap m c hs with
  | nil =>
    cases hgiven with
    | @cons h _ hs _ hget hrest =>
      have hone := addOne_of_not_isFinite hholds hget.1 hn
      refine ⟨heap, m, ?_, hholds⟩
      simp only [add, hone]
  | cons k before ih =>
    cases hgiven with
    | @cons h _ hs _ hget hrest =>
      rcases addOne_of_isFinite hholds hget.1 (hbefore k List.mem_cons_self) with
        ⟨answer, heap', m', hone, hholds', -, -, hspares⟩
      obtain ⟨heap'', m'', hadd, hholds''⟩ :=
        ih hholds' (Given.spared hrest hspares) fun j hj => hbefore j (List.mem_cons_of_mem _ hj)
      refine ⟨heap'', m'', ?_, hholds''⟩
      simp only [add, hone, hadd, Except.map]

end Several

/-! ## Snapshots -/

/-- A snapshot of metrics becomes the content. -/
theorem restore_of_parse (heap : Heap) (m : Memory) {s : Snapshot} {ms : List Metric}
    (h : s.parse = .ok ms) :
    ∃ heap' m', restore heap m s = (.ok (), heap', m') ∧ Holds heap' m' ms := by
  refine ⟨(heap.allocAll ms).2, ⟨(ms.map Metric.key).zip (heap.allocAll ms).1⟩, ?_, ?_, ?_⟩
  · simp only [restore, h]
  · have hshows := heap.shows_allocAll ms
    unfold Heap.Shows at hshows
    generalize (heap.allocAll ms).1 = hs at hshows
    generalize (heap.allocAll ms).2 = heap' at hshows
    clear h
    induction hshows with
    | nil => exact .nil
    | cons hget _ ih => exact .cons ⟨rfl, hget⟩ ih
  · have hlength : (heap.allocAll ms).1.length ≤ (ms.map Metric.key).length := by
      rw [(heap.shows_allocAll ms).length_eq, List.length_map]
    unfold handles
    rw [List.map_snd_zip hlength]
    exact heap.nodup_allocAll ms

/-- Anything else is refused and changes nothing. -/
theorem restore_of_error (heap : Heap) (m : Memory) {s : Snapshot} {e : Failure}
    (h : s.parse = .error e) : restore heap m s = (.error e, heap, m) := by
  simp only [restore, h]

end Memory

end MetricRelay
