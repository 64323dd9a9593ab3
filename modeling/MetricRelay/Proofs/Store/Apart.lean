import MetricRelay.Proofs.Metric.Totals
import MetricRelay.Proofs.Store.Interchange
import MetricRelay.Proofs.Store.Snapshots

/-!
# Stores side by side

Two stores of one process share its cells and its disk.  A call of one of them
leaves the cells of the other alone, whatever handles it is given, and a store in
memory leaves the disk alone.  So each of them holds what it would hold without
the other.

Main definitions:

- `Memory.AddsOne`: what an update of a store in memory comes to.
- `Store.IsBlank`: a store that works and holds nothing.
- `Store.readBack` and `Store.readHost`: a content as a store gives it, and cells
  that show it.
- `Session.Spares`: what a call of a store leaves alone.
- `Session.Given`: updates in cells of others.

Main results:

- `Memory.preserves_add`: what each update preserves is preserved by several.
- `Session.Holds.congr`: a store beside a store that was called.
- `Session.Holds.add`: updates in cells of others are added to the content.
- `Session.Holds.exists_add`: whatever is added, a store holds some content.
- `Session.Holds.restore` and `Session.Holds.snapshot`: the content after it is
  replaced, and when it is read.
-/

namespace MetricRelay

/-- A handle within the cells has one. -/
theorem Heap.exists_get?_of_lt {heap : Heap} {h : Handle} (hvalid : h.index < heap.size) :
    ∃ m, heap.get? h = some m :=
  ⟨heap.cells[h.index], List.getElem?_eq_getElem hvalid⟩

/-! ## Stores in memory -/

namespace Memory

variable {heap heap' : Heap} {m m' m'' : Memory} {c : Content}

/-- The cells of a store show what it holds. -/
theorem Holds.exists_get? (h : Holds heap m c) {x : Handle} (hx : x ∈ m.handles) :
    ∃ n, heap.get? x = some n := by
  rcases List.mem_map.1 hx with ⟨y, hy, rfl⟩
  rcases exists_of_mem_cells h.cells hy with ⟨n, -, -, hget⟩
  exact ⟨n, hget⟩

/-- A store whose cells show what they showed holds what it held. -/
theorem Holds.congr (h : Holds heap m c)
    (hkeep : ∀ x ∈ m.handles, ∀ n, heap.get? x = some n → heap'.get? x = some n) :
    Holds heap' m c :=
  ⟨forall₂_isCellOf h.cells fun _ hx => hkeep _ (List.mem_map_of_mem hx), h.nodup⟩

/-- Cells that were there before a snapshot is restored are none of the store. -/
theorem spares_restore (heap : Heap) (m : Memory) (s : Snapshot) :
    Spares heap m (restore heap m s).2.1 (restore heap m s).2.2 := by
  intro x n hget hmem
  unfold restore
  cases hparse : s.parse with
  | error e => exact ⟨hget, hmem⟩
  | ok ms =>
    refine ⟨Heap.get?_allocAll hget ms, fun hin => ?_⟩
    rcases List.mem_map.1 hin with ⟨y, hy, rfl⟩
    exact Heap.not_mem_allocAll hget ms (List.of_mem_zip hy).2

/-- What an update comes to: it is refused, or a cell is made for its key, or the cell of
its key is changed.  The answer comes in a fresh cell. -/
inductive AddsOne (heap : Heap) (m : Memory) (h : Handle) : Outcome Handle × Heap × Memory → Prop
  | refused (e : Failure) : AddsOne heap m h (.error e, heap, m)
  | made (next : Metric) (missing : m.get? (heap.get h).key = none) :
      AddsOne heap m h (.ok (heap.alloc next).2.next, ((heap.alloc next).2.alloc next).2,
        ⟨m.cells ++ [((heap.get h).key, heap.next)]⟩)
  | changed {cell : Handle} (found : m.get? (heap.get h).key = some cell) (next answer : Metric) :
      AddsOne heap m h (.ok (heap.set cell next).next, ((heap.set cell next).alloc answer).2, m)

/-- Memory adds one metric as the relation says. -/
theorem addsOne_addOne (heap : Heap) (m : Memory) (h : Handle) :
    AddsOne heap m h (addOne heap m h) := by
  unfold addOne
  simp only
  cases hcell : m.get? (heap.get h).key with
  | none =>
    cases (heap.get h).addTo none with
    | error e => exact .refused e
    | ok next => exact .made next hcell
  | some cell =>
    simp only [Heap.update]
    cases (heap.get cell).update (heap.get h).value with
    | error e => exact .refused e
    | ok next => exact .changed hcell next _

/-- Updates make cells and give none up. -/
theorem size_le_addOne (heap : Heap) (m : Memory) (h : Handle) :
    heap.size ≤ (addOne heap m h).2.1.size := by
  have hone := addsOne_addOne heap m h
  generalize addOne heap m h = result at hone ⊢
  cases hone with
  | refused e => exact Nat.le_refl _
  | made next missing =>
    simp only [Heap.size_alloc]
    omega
  | changed found next answer =>
    simp only [Heap.size_alloc, Heap.size_set]
    omega

/-- The answer to an update comes in a fresh cell. -/
theorem size_le_of_addOne {h answer : Handle} (hanswer : (addOne heap m h).1 = .ok answer) :
    heap.size ≤ answer.index ∧ answer.index < (addOne heap m h).2.1.size := by
  have hone := addsOne_addOne heap m h
  generalize addOne heap m h = result at hone hanswer ⊢
  cases hone with
  | refused e => cases hanswer
  | made next missing =>
    cases hanswer
    simp only [Heap.next, Heap.size_alloc]
    omega
  | changed found next _ =>
    cases hanswer
    simp only [Heap.next, Heap.size_alloc, Heap.size_set]
    omega

/-- What is preserved by each update is preserved by several. -/
theorem preserves_add {P : Heap → Memory → Prop}
    (hone : ∀ heap m h, P heap m → P (addOne heap m h).2.1 (addOne heap m h).2.2)
    (h : P heap m) (hs : List Handle) : P (add heap m hs).2.1 (add heap m hs).2.2 := by
  induction hs generalizing heap m with
  | nil => exact h
  | cons x hs ih =>
    have hfirst := hone heap m x h
    rw [add]
    rcases haddOne : addOne heap m x with ⟨result, heap', m'⟩
    rw [haddOne] at hfirst
    cases result with
    | error e => exact hfirst
    | ok answer => exact ih hfirst

/-- No cell is given up. -/
theorem size_le_add (heap : Heap) (m : Memory) (hs : List Handle) :
    heap.size ≤ (add heap m hs).2.1.size :=
  preserves_add (P := fun heap' _ => heap.size ≤ heap'.size)
    (fun heap' m' h hsize => hsize.trans (size_le_addOne heap' m' h)) (Nat.le_refl _) hs

/-- Updates that are all taken: the first one is, and then the others. -/
theorem add_cons_eq_ok {h : Handle} {hs answers : List Handle}
    (hadd : (add heap m (h :: hs)).1 = .ok answers) :
    ∃ answer heap' m' others, addOne heap m h = (.ok answer, heap', m') ∧
      (add heap' m' hs).1 = .ok others ∧ answers = answer :: others ∧
      (add heap m (h :: hs)).2 = (add heap' m' hs).2 := by
  rw [add] at hadd ⊢
  rcases hone : addOne heap m h with ⟨result, heap', m'⟩
  rw [hone] at hadd
  cases result with
  | error e => cases hadd
  | ok answer =>
    cases hothers : (add heap' m' hs).1 with
    | error e =>
      simp only [hothers] at hadd
      cases hadd
    | ok others =>
      simp only [hothers] at hadd
      cases hadd
      exact ⟨answer, heap', m', others, rfl, hothers, rfl, rfl⟩

/-- The answers to several updates come in fresh cells. -/
theorem size_le_of_mem_add {hs answers : List Handle} (hadd : (add heap m hs).1 = .ok answers)
    {y : Handle} (hy : y ∈ answers) :
    heap.size ≤ y.index ∧ y.index < (add heap m hs).2.1.size := by
  induction hs generalizing heap m answers with
  | nil =>
    cases hadd
    cases hy
  | cons h hs ih =>
    rcases add_cons_eq_ok hadd with ⟨answer, heap', m', others, hone, hothers, rfl, hafter⟩
    have hfresh := @size_le_of_addOne heap m h answer
    have hsize := size_le_addOne heap m h
    rw [hone] at hfresh hsize
    rw [hafter]
    rcases List.mem_cons.1 hy with rfl | hy
    · exact ⟨(hfresh rfl).1, (hfresh rfl).2.trans_le (size_le_add heap' m' hs)⟩
    · exact ⟨hsize.trans (ih hothers hy).1, (ih hothers hy).2⟩

/-- Whatever cells are given, a store holds some content after updates. -/
theorem Holds.exists_add (h : Holds heap m c) (hc : c.Sound) {hs : List Handle}
    (hvalid : ∀ x ∈ hs, x.index < heap.size) :
    ∃ c', Holds (add heap m hs).2.1 (add heap m hs).2.2 c' ∧ c'.Sound ∧
      Spares heap m (add heap m hs).2.1 (add heap m hs).2.2 := by
  induction hs generalizing heap m c with
  | nil => exact ⟨c, h, hc, Spares.refl heap m⟩
  | cons x hs ih =>
    rcases Heap.exists_get?_of_lt (hvalid x List.mem_cons_self) with ⟨n, hget⟩
    have hsize := size_le_addOne heap m x
    rw [add]
    cases hn : n.value.isFinite with
    | false =>
      rw [addOne_of_not_isFinite h hget hn]
      exact ⟨c, h, hc, Spares.refl heap m⟩
    | true =>
      rcases addOne_of_isFinite h hget hn with ⟨answer, heap', m', hone, hholds, -, -, hspares⟩
      rw [hone] at hsize ⊢
      have hrest : ∀ y ∈ hs, y.index < heap'.size := fun y hy =>
        Nat.lt_of_lt_of_le (hvalid y (List.mem_cons_of_mem _ hy)) hsize
      rcases ih hholds (hc.put (c.isFinite_next hn)) hrest with ⟨c', hholds', hc', hspares'⟩
      exact ⟨c', hholds', hc', hspares.trans hspares'⟩

/-- After a snapshot a store holds what it held, or the metrics of the snapshot. -/
theorem exists_holds_restore (h : ∃ c : Content, Holds heap m c ∧ c.Sound) (s : Snapshot) :
    ∃ c : Content, Holds (restore heap m s).2.1 (restore heap m s).2.2 c ∧ c.Sound := by
  cases hparse : s.parse with
  | error e =>
    rw [restore_of_error heap m hparse]
    exact h
  | ok ms =>
    rcases restore_of_parse heap m hparse with ⟨heap', m', hrestore, hholds⟩
    rw [hrestore]
    exact ⟨ms, hholds, Snapshot.sound_of_parse hparse⟩

/-- The cells of memory stay its own. -/
theorem handles_subset_addOne (heap : Heap) (m : Memory) (h : Handle) :
    m.handles ⊆ (addOne heap m h).2.2.handles := by
  have hone := addsOne_addOne heap m h
  generalize addOne heap m h = result at hone ⊢
  cases hone with
  | refused e => exact fun _ hx => hx
  | made next missing =>
    intro x hx
    simp only [handles, List.map_append]
    exact List.mem_append_left _ hx
  | changed found next answer => exact fun _ hx => hx

/-- A store keeps its cells when it takes updates. -/
theorem handles_subset_add (heap : Heap) (m : Memory) (hs : List Handle) :
    m.handles ⊆ (add heap m hs).2.2.handles :=
  preserves_add (P := fun _ m' => m.handles ⊆ m'.handles)
    (fun heap' m' h hsub _ hx => handles_subset_addOne heap' m' h (hsub hx)) (fun _ hx => hx) hs

/-- A finite cell is still finite when a store has taken updates: it is one of the
store, or is left alone. -/
theorem Spares.isFinite (hspares : Spares heap m heap' m') (hmore : m.handles ⊆ m'.handles)
    (hholds : Holds heap' m' c) (hc : c.IsFinite) {x : Handle} (hvalid : x.index < heap.size)
    (hfinite : (heap.get x).value.isFinite = true) : (heap'.get x).value.isFinite = true := by
  by_cases hmem : x ∈ m.handles
  · rcases List.mem_map.1 (hmore hmem) with ⟨y, hy, rfl⟩
    have hmetric : heap'.get y.2 ∈ m'.metrics heap' := List.mem_map_of_mem hy
    rw [hholds.metrics_eq] at hmetric
    exact hc _ hmetric
  · rcases Heap.exists_get?_of_lt hvalid with ⟨n, hget⟩
    rw [Heap.get_eq_of_get? hget] at hfinite
    rw [Heap.get_eq_of_get? (hspares x n hget hmem).1]
    exact hfinite

/-- Whatever cells are given, updates that are finite at first are all taken: they
are still finite when their turn comes. -/
theorem Holds.exists_answers (h : Holds heap m c) (hc : c.Sound) {hs : List Handle}
    (hvalid : ∀ x ∈ hs, x.index < heap.size)
    (hfinite : ∀ x ∈ hs, (heap.get x).value.isFinite = true) :
    ∃ answers, (add heap m hs).1 = .ok answers := by
  induction hs generalizing heap m c with
  | nil => exact ⟨[], rfl⟩
  | cons x hs ih =>
    rcases Heap.exists_get?_of_lt (hvalid x List.mem_cons_self) with ⟨n, hget⟩
    have hn := hfinite x List.mem_cons_self
    rw [Heap.get_eq_of_get? hget] at hn
    have hsize := size_le_addOne heap m x
    have hmore := handles_subset_addOne heap m x
    rcases addOne_of_isFinite h hget hn with ⟨answer, heap', m', hone, hholds, -, -, hspares⟩
    have hc' := hc.put (c.isFinite_next hn)
    rw [hone] at hsize hmore
    rcases ih hholds hc'
        (fun y hy => Nat.lt_of_lt_of_le (hvalid y (List.mem_cons_of_mem _ hy)) hsize)
        (fun y hy => hspares.isFinite hmore hholds hc'.finite
          (hvalid y (List.mem_cons_of_mem _ hy)) (hfinite y (List.mem_cons_of_mem _ hy)))
      with ⟨answers, hadd⟩
    refine ⟨answer :: answers, ?_⟩
    rw [add, hone]
    simp only [hadd]
    rfl

/-- Updates that were all taken are finite, also afterwards. -/
theorem Holds.isFinite_of_add (h : Holds heap m c) (hc : c.Sound) {hs answers : List Handle}
    (hvalid : ∀ x ∈ hs, x.index < heap.size) (hadd : (add heap m hs).1 = .ok answers) :
    ∀ x ∈ hs, ((add heap m hs).2.1.get x).value.isFinite = true := by
  induction hs generalizing heap m c answers with
  | nil =>
    intro x hx
    cases hx
  | cons x hs ih =>
    rcases Heap.exists_get?_of_lt (hvalid x List.mem_cons_self) with ⟨n, hget⟩
    have hsize := size_le_addOne heap m x
    have hmore := handles_subset_addOne heap m x
    rw [add] at hadd ⊢
    cases hn : n.value.isFinite with
    | false =>
      rw [addOne_of_not_isFinite h hget hn] at hadd
      cases hadd
    | true =>
      rcases addOne_of_isFinite h hget hn with ⟨answer, heap', m', hone, hholds, -, -, hspares⟩
      have hc' := hc.put (c.isFinite_next hn)
      rw [hone] at hsize hmore hadd ⊢
      have hvalid' {y : Handle} (hy : y.index < heap.size) : y.index < heap'.size :=
        Nat.lt_of_lt_of_le hy hsize
      have hrest : ∀ y ∈ hs, y.index < heap'.size := fun y hy =>
        hvalid' (hvalid y (List.mem_cons_of_mem _ hy))
      intro y hy
      rcases List.mem_cons.1 hy with rfl | hy
      · rcases hholds.exists_add hc' hrest with ⟨c'', hholds', hc'', hspares'⟩
        refine hspares'.isFinite (handles_subset_add heap' m' hs) hholds' hc''.finite
          (hvalid' (hvalid y List.mem_cons_self)) (hspares.isFinite hmore hholds hc'.finite
            (hvalid y List.mem_cons_self) ?_)
        rw [Heap.get_eq_of_get? hget]
        exact hn
      · cases hothers : (add heap' m' hs).1 with
        | error e =>
          simp only [hothers] at hadd
          cases hadd
        | ok others => exact ih hholds hc' hrest hothers y hy

end Memory

/-! ## Reading back -/

/-- A database keeps nothing of the sign of a zero. -/
theorem TableRow.keep_unsignZero (x : Binary64) : keep x.unsignZero = keep x := by
  cases x with
  | nan => rfl
  | infinite negative => rfl
  | finite negative rank =>
    by_cases hzero : rank.val = 0
    · have hunsigned : (Binary64.finite negative rank).unsignZero = .zero false := if_pos hzero
      show keep (Binary64.unsignZero _) = some (Binary64.unsignZero _)
      rw [hunsigned]
      rfl
    · have hsame : (Binary64.finite negative rank).unsignZero = .finite negative rank :=
        if_neg hzero
      rw [hsame]

/-- A row does not tell the two zeros apart. -/
theorem TableRow.ofMetric_unsignZero (m : Metric) : ofMetric m.unsignZero = ofMetric m := by
  rcases m with ⟨name, v⟩
  cases v with
  | total n => rfl
  | reading x => exact congrArg (TableRow.mk ⟨.gauge, name⟩ none) (keep_unsignZero x)

/-- A database holds what it gives. -/
theorem Database.Holds.map_unsignZero {d : Database} {disk : Disk} {c : Content}
    (h : d.Holds disk c) : d.Holds disk (c.map Metric.unsignZero) := by
  refine ⟨?_, h.works⟩
  have hrows : (c.map Metric.unsignZero).map TableRow.ofMetric = c.map TableRow.ofMetric := by
    rw [List.map_map]
    exact List.map_congr_left fun m _ => TableRow.ofMetric_unsignZero m
  rw [hrows]
  exact h.table_eq

/-- A store in memory whose cells lose the sign of zero. -/
theorem Memory.Holds.map_unsignZero {heap : Heap} {m : Memory} {c : Content} (h : Holds heap m c) :
    Holds ⟨heap.cells.map Metric.unsignZero⟩ m (c.map Metric.unsignZero) := by
  refine ⟨List.forall₂_map_right_iff.2 (h.cells.imp fun x n hcell => ⟨?_, ?_⟩), h.nodup⟩
  · have hkey : n.unsignZero.key = n.key := by
      rw [Metric.key, Metric.key, Metric.kind, Metric.unsignZero, Value.kind_unsignZero]
      rfl
    exact hcell.1.trans hkey.symm
  · show (heap.cells.map Metric.unsignZero)[x.2.index]? = some n.unsignZero
    rw [List.getElem?_map]
    exact congrArg (Option.map Metric.unsignZero) hcell.2

/-! ## Stores -/

namespace Store

/-- A store that works and holds nothing. -/
def IsBlank (host : Host) : Store → Prop
  | memory m => m = .empty
  | file f => f.read host.disk = .ok [] ∧ (f.write host.disk []).1 = .ok ()
  | database d => d.rows host.disk = .ok [] ∧ d.checkWrite host.disk = .ok ()
  | disabled | broken => False

/-- The cells of a store. -/
def handles : Store → List Handle
  | memory m => m.handles
  | disabled | file _ | database _ | broken => []

/-- What a store gives for a snapshot of its content. -/
def reads : Store → Snapshot → Snapshot
  | database _ => Snapshot.unsignZero
  | memory _ | disabled | file _ | broken => id

/-- What a store gives for its content. -/
def readBack : Store → Content → Content
  | database _ => List.map Metric.unsignZero
  | memory _ | disabled | file _ | broken => id

/-- A host whose cells show what a store gives for them. -/
def readHost (s : Store) (host : Host) : Host := ⟨⟨s.readBack host.heap.cells⟩, host.disk⟩

/-- A store reads the snapshot of its contents as what it gives back of them. -/
theorem reads_ofMetrics (s : Store) {c : Content} (hc : c.IsFinite) :
    s.reads (Snapshot.ofMetrics c) = Snapshot.ofMetrics (s.readBack c) := by
  cases s with
  | memory m => rfl
  | disabled => rfl
  | file f => rfl
  | database d => exact (Content.ofMetrics_unsignZero hc).symm
  | broken => rfl

/-- What is given back of sound contents is sound. -/
theorem sound_readBack (s : Store) {c : Content} (hc : c.Sound) : (s.readBack c).Sound := by
  cases s with
  | memory m => exact hc
  | disabled => exact hc
  | file f => exact hc
  | database d => exact hc.map_unsignZero
  | broken => exact hc

/-- Two contents that agree are given back alike. -/
theorem same_readBack (s : Store) {c c' : Content} (h : c.Same c') :
    (s.readBack c).Same (s.readBack c') := by
  cases s with
  | memory m => exact h
  | disabled => exact h
  | file f => exact h
  | database d => exact h.map_unsignZero
  | broken => exact h

/-- Reading a store leaves all cells alone. -/
theorem heap_snapshot (s : Store) (host : Host) : (s.snapshot host).2.heap = host.heap := by
  cases s <;> rfl

theorem shown_content (s : Store) (content : Snapshot) :
    s.shown (.content (.ok content)) = .content (.ok (s.reads content)) := by
  cases s <;> rfl

end Store

/-! ## Sessions -/

namespace Session

/-- A store that is not in memory stays as it is, and the cells that it was not
given stay too.  A store in memory leaves the disk and the cells of others alone. -/
inductive Spares : Session → Session → Prop
  | memory {heap heap' : Heap} {m m' : Memory} (disk : Disk)
      (cells : Memory.Spares heap m heap' m') :
      Spares ⟨.memory m, ⟨heap, disk⟩⟩ ⟨.memory m', ⟨heap', disk⟩⟩
  | other {store : Store} {host host' : Host} (others : store.handles = [])
      (cells : ∀ x n, host.heap.get? x = some n → host'.heap.get? x = some n) :
      Spares ⟨store, host⟩ ⟨store, host'⟩

/-- Cells of others that show some metrics. -/
def Given (s : Session) (hs : List Handle) (ms : List Metric) : Prop :=
  List.Forall₂ (fun x n => s.host.heap.get? x = some n ∧ x ∉ s.store.handles) hs ms

section

variable {s s' : Session} {c : Content}

/-- Cells of others show what they showed, and are still those of others. -/
theorem Spares.cells (h : Spares s s') {x : Handle} {n : Metric}
    (hget : s.host.heap.get? x = some n) (hmem : x ∉ s.store.handles) :
    s'.host.heap.get? x = some n ∧ x ∉ s'.store.handles := by
  cases h with
  | memory disk cells => exact cells x n hget hmem
  | other others cells => exact ⟨cells x n hget, hmem⟩

/-- A store beside a store that was called holds what it held. -/
theorem Holds.congr {t : Store} {host host' : Host} (h : Holds ⟨t, host⟩ c)
    (hdisk : host'.disk = host.disk)
    (hkeep : ∀ x ∈ t.handles, ∀ n, host.heap.get? x = some n → host'.heap.get? x = some n) :
    Holds ⟨t, host'⟩ c := by
  cases t with
  | memory m => exact Memory.Holds.congr h hkeep
  | disabled => exact absurd h id
  | file f =>
    show f.Holds host'.disk c
    rw [hdisk]
    exact h
  | database d =>
    show d.Holds host'.disk c
    rw [hdisk]
    exact h
  | broken => exact absurd h id

/-- A store holds what it gives. -/
theorem Holds.readBack (h : s.Holds c) : s.Holds (s.store.readBack c) := by
  rcases s with ⟨store, host⟩
  cases store with
  | memory m => exact h
  | disabled => exact h
  | file f => exact h
  | database d => exact Database.Holds.map_unsignZero h
  | broken => exact h

/-- What a store holds is in cells that are there. -/
theorem Holds.exists_get? (h : s.Holds c) {x : Handle} (hx : x ∈ s.store.handles) :
    ∃ n, s.host.heap.get? x = some n := by
  rcases s with ⟨store, host⟩
  cases store with
  | memory m => exact Memory.Holds.exists_get? h hx
  | disabled => cases hx
  | file f => cases hx
  | database d => cases hx
  | broken => cases hx

/-- A store that is not in memory holds in the next process what it held. -/
theorem Holds.restarted (h : s.Holds c) (durable : ∀ m, s.store ≠ .memory m) :
    Holds ⟨s.store, s.host.restarted⟩ c := by
  rcases s with ⟨store, host⟩
  cases store with
  | memory m => exact absurd rfl (durable m)
  | disabled => exact absurd h id
  | file f => exact h
  | database d => exact h
  | broken => exact absurd h id

/-- A store in which there is nothing holds nothing. -/
theorem holds_of_isBlank {store : Store} {host : Host} (h : store.IsBlank host) :
    Holds ⟨store, host⟩ [] := by
  cases store with
  | memory m =>
    obtain rfl : m = .empty := h
    exact Memory.holds_empty host.heap
  | disabled => exact absurd h id
  | file f => exact ⟨MetricsFile.ready_of_write h.2, h.1⟩
  | database d => exact Database.holds_empty h.1 h.2
  | broken => exact absurd h id

/-! ## Calls -/

/-- The answers of a store that is not in memory come in fresh cells. -/
theorem exists_answer (ms : List Metric) (host : Host) :
    ∃ answers host', Store.answer (.ok ms) host = (.ok answers, host') ∧
      host'.getAll answers = ms ∧ host'.disk = host.disk ∧
      ∀ x n, host.heap.get? x = some n → host'.heap.get? x = some n :=
  ⟨_, _, rfl, getAll_allocAll host ms, rfl, fun _ _ hget => Heap.get?_allocAll hget ms⟩

/-- No older handle notices such an answer. -/
theorem get?_answer (result : Outcome (List Metric)) {host : Host} (disk : Disk) {x : Handle}
    {n : Metric} (hget : host.heap.get? x = some n) :
    (Store.answer result { host with disk := disk }).2.heap.get? x = some n := by
  cases result with
  | error e => exact hget
  | ok ms => exact Heap.get?_allocAll hget ms

/-- Handles that are given show their metrics. -/
theorem Given.getAll_eq {hs : List Handle} {ms : List Metric} (h : s.Given hs ms) :
    s.host.getAll hs = ms := by
  have hshows : s.host.heap.Shows hs ms := h.imp fun _ _ hx => hx.1
  exact hshows.map_get

/-- Finite updates in cells of others are added to the content. -/
theorem Holds.add (h : s.Holds c) (hc : c.IsFinite) {hs : List Handle} {ms : List Metric}
    (hgiven : s.Given hs ms) (hfinite : ∀ n ∈ ms, n.value.isFinite = true) :
    ∃ answers s', s.store.add s.host hs = (.ok answers, s'.store, s'.host) ∧
      s'.Holds (Content.add ms c).2 ∧ s'.host.getAll answers = (Content.add ms c).1 ∧
      Spares s s' := by
  have hms := hgiven.getAll_eq
  rcases s with ⟨store, host⟩
  cases store with
  | memory m =>
    rcases Memory.add_of_isFinite h hgiven hfinite with
      ⟨answers, heap, m', hadd, hholds, hanswers, hspares⟩
    have hshows : heap.Shows answers (Content.add ms c).1 := hanswers.imp fun _ _ hx => hx.1
    refine ⟨answers, ⟨.memory m', ⟨heap, host.disk⟩⟩, ?_, hholds, hshows.map_get,
      .memory host.disk hspares⟩
    simp only [Store.add, hadd]
  | disabled => exact absurd h id
  | file f =>
    rcases MetricsFile.Holds.add h hc hfinite with ⟨disk, hadd, hholds⟩
    rcases exists_answer (Content.add ms c).1 { host with disk := disk } with
      ⟨answers, host', hanswer, hshown, hdisk, hcells⟩
    refine ⟨answers, ⟨.file f, host'⟩, ?_, ?_, hshown, .other rfl hcells⟩
    · simp only [Store.add, hms, hadd, hanswer]
    · show f.Holds host'.disk _
      rw [hdisk]
      exact hholds
  | database d =>
    rcases Database.Holds.add h hc hfinite with ⟨disk, hadd, hholds⟩
    rcases exists_answer (Content.add ms c).1 { host with disk := disk } with
      ⟨answers, host', hanswer, hshown, hdisk, hcells⟩
    refine ⟨answers, ⟨.database d, host'⟩, ?_, ?_, hshown, .other rfl hcells⟩
    · simp only [Store.add, hms, hadd, hanswer]
    · show d.Holds host'.disk _
      rw [hdisk]
      exact hholds
  | broken => exact absurd h id

/-- Whatever updates come, a file holds some content afterwards. -/
theorem exists_add_file {f : MetricsFile} {disk : Disk} (h : f.Holds disk c) (hc : c.Sound)
    (ms : List Metric) : ∃ c', f.Holds (f.add disk ms).2 c' ∧ c'.Sound := by
  rcases finite_or_refused ms with hfinite | ⟨before, n, after, rfl, hbefore, hn⟩
  · rcases h.add hc.finite hfinite with ⟨disk', hadd, hholds⟩
    rw [hadd]
    exact ⟨_, hholds, hc.add hfinite⟩
  · rw [h.add_of_not_isFinite hc.finite hbefore hn after]
    exact ⟨c, h, hc⟩

/-- Whatever updates come, a database holds some content afterwards. -/
theorem exists_add_database {d : Database} {disk : Disk} (h : d.Holds disk c) (hc : c.Sound)
    (ms : List Metric) : ∃ c', d.Holds (d.add disk ms).2 c' ∧ c'.Sound := by
  rcases finite_or_refused ms with hfinite | ⟨before, n, after, rfl, hbefore, hn⟩
  · rcases h.add hc.finite hfinite with ⟨disk', hadd, hholds⟩
    rw [hadd]
    exact ⟨_, hholds, hc.add hfinite⟩
  · rcases h.add_of_not_isFinite hc.finite hbefore hn after with ⟨disk', hadd, hholds⟩
    rw [hadd]
    exact ⟨c, hholds, hc⟩

/-- Whatever cells are given, a store holds some content after updates. -/
theorem Holds.exists_add (h : s.Holds c) (hc : c.Sound) {hs : List Handle}
    (hvalid : ∀ x ∈ hs, x.index < s.host.heap.size) :
    ∃ c', Holds ⟨(s.store.add s.host hs).2.1, (s.store.add s.host hs).2.2⟩ c' ∧ c'.Sound ∧
      Spares s ⟨(s.store.add s.host hs).2.1, (s.store.add s.host hs).2.2⟩ := by
  rcases s with ⟨store, host⟩
  cases store with
  | memory m =>
    rcases Memory.Holds.exists_add h hc hvalid with ⟨c', hholds, hc', hspares⟩
    exact ⟨c', hholds, hc', .memory host.disk hspares⟩
  | disabled => exact absurd h id
  | file f =>
    rcases exists_add_file h hc (host.getAll hs) with ⟨c', hholds, hc'⟩
    refine ⟨c', ?_, hc', .other rfl fun x n hget => get?_answer _ _ hget⟩
    show f.Holds (Store.answer _ _).2.disk c'
    rw [disk_answer]
    exact hholds
  | database d =>
    rcases exists_add_database h hc (host.getAll hs) with ⟨c', hholds, hc'⟩
    refine ⟨c', ?_, hc', .other rfl fun x n hget => get?_answer _ _ hget⟩
    show d.Holds (Store.answer _ _).2.disk c'
    rw [disk_answer]
    exact hholds
  | broken => exact absurd h id

/-- A restore spares all cells but those of memory. -/
theorem spares_restore (s : Session) (content : Snapshot) :
    Spares s
      ⟨(s.store.restore s.host content).2.1, (s.store.restore s.host content).2.2⟩ := by
  rcases s with ⟨store, host⟩
  cases store with
  | memory m => exact .memory host.disk (Memory.spares_restore host.heap m content)
  | disabled => exact .other rfl fun _ _ hget => hget
  | file f => exact .other rfl fun _ _ hget => hget
  | database d => exact .other rfl fun _ _ hget => hget
  | broken => exact .other rfl fun _ _ hget => hget

/-- A snapshot of metrics becomes the content. -/
theorem Holds.restore (h : s.Holds c) (hc : c.IsFinite) {content : Snapshot} {ms : List Metric}
    (hparse : content.parse = .ok ms) :
    ∃ s', s.store.restore s.host content = (.ok (), s'.store, s'.host) ∧ s'.Holds ms ∧
      Spares s s' := by
  have hfollows := h.follows hc (.restore content)
  have hcontent : c.answer (.restore content) = .done (.ok ()) := by
    rw [Content.answer, hparse]
    rfl
  have hanswer := hfollows.answer_eq
  have hholds := hfollows.holds
  rw [hcontent, Store.shown_done] at hanswer
  rw [Content.after, hparse] at hholds
  exact ⟨(s.call (.restore content)).2, Prod.ext (Answer.done.inj hanswer) rfl, hholds,
    s.spares_restore content⟩

/-- A snapshot that cannot be parsed is refused and changes nothing. -/
theorem Holds.restore_of_error (h : s.Holds c) {content : Snapshot} {e : Failure}
    (hparse : content.parse = .error e) :
    s.store.restore s.host content = (.error e, s.store, s.host) := by
  rcases s with ⟨store, host⟩
  cases store with
  | memory m => simp only [Store.restore, Memory.restore_of_error host.heap m hparse]
  | disabled => exact absurd h id
  | file f => simp only [Store.restore, MetricsFile.restore_of_error f host.disk hparse]
  | database d => simp only [Store.restore, Database.restore_of_error d host.disk hparse]
  | broken => exact absurd h id

/-- Whatever snapshot comes, a store holds some content afterwards. -/
theorem Holds.exists_restore (h : s.Holds c) (hc : c.Sound) (content : Snapshot) :
    ∃ c', Holds ⟨(s.store.restore s.host content).2.1, (s.store.restore s.host content).2.2⟩ c' ∧
      c'.Sound := by
  cases hparse : content.parse with
  | ok ms =>
    rcases h.restore hc.finite hparse with ⟨s', hrestore, hholds, -⟩
    rw [hrestore]
    exact ⟨ms, hholds, Snapshot.sound_of_parse hparse⟩
  | error e =>
    rw [h.restore_of_error hparse]
    exact ⟨c, h, hc⟩

/-- The snapshot of a store is that of its content. -/
theorem Holds.snapshot (h : s.Holds c) (hc : c.IsFinite) :
    ∃ host', s.store.snapshot s.host = (.ok (s.store.reads (Snapshot.ofMetrics c)), host') ∧
      Holds ⟨s.store, host'⟩ c ∧ host'.heap = s.host.heap := by
  have hfollows := h.follows hc .snapshot
  have hanswer := hfollows.answer_eq
  rw [Content.answer, Store.shown_content] at hanswer
  exact ⟨(s.call .snapshot).2.host, Prod.ext (Answer.content.inj hanswer) rfl, hfollows.holds,
    s.store.heap_snapshot s.host⟩

end

end Session

end MetricRelay
