import MetricRelay.Proofs.Metric.Changes
import MetricRelay.Proofs.Store.Apart

/-!
# Handles of clients

A client of a store makes cells, changes what is in them, and hands their handles to the
store; the store hands handles to the client.  A cell that is none of the store's is the
client's own: what the client does to it is not noticed by the store, and nothing that
the store does is noticed through it.

Main definitions:

- `Client.Act` and `Client.Reply`: what a client does, and what the store says.
- `Session.act`, `Session.acted` and `Session.told`: what comes of it.
- `Session.Apart`: neither the store nor the owner of a cell notices the other.

Main results:

- `Session.Foreign.act_set`: what a cell shows that is none of the store's makes no
  difference.
- `Session.Foreign.isApart`: such a cell is apart from the store, for good.
-/

namespace MetricRelay

/-! ## What clients do -/

/-- What a client does: it puts a metric into a cell of its own, changes what is in a
cell, or calls the store.  To copy a handle it need not do anything. -/
inductive Client.Act where
  | make (m : Metric)
  | change (x : Handle) (c : Change)
  | add (hs : List Handle)
  | get (key : Key)
  | snapshot
  | restore (content : Snapshot)

/-- What a client is told: handles with what they show, a snapshot, or whether the
content was replaced. -/
inductive Client.Reply where
  | handles (result : Outcome (List (Handle × Metric)))
  | content (result : Outcome Snapshot)
  | done (result : Outcome Unit)

namespace Client.Act

/-- The handles that the store is given. -/
def given : Act → List Handle
  | add hs => hs
  | _ => []

/-- The changes that are made through a handle. -/
def changes (x : Handle) : Act → List Change
  | change y c => if y = x then [c] else []
  | _ => []

end Client.Act

namespace Session

open Client

/-- What a handle shows. -/
def shown (s : Session) (x : Handle) : Metric := s.host.heap.get x

/-- Handles with what they show. -/
def showing (host : Host) (hs : List Handle) : List (Handle × Metric) :=
  hs.map fun x => (x, host.heap.get x)

/-- What comes of an act.  The store says nothing to a change. -/
def act (s : Session) : Act → Option Reply × Session
  | .make m =>
    let (x, host) := s.host.alloc m
    (some (.handles (.ok (showing host [x]))), ⟨s.store, host⟩)
  | .change x c => (none, ⟨s.store, { s.host with heap := s.host.heap.change x c }⟩)
  | .add hs =>
    let (result, store, host) := s.store.add s.host hs
    (some (.handles (result.map (showing host))), ⟨store, host⟩)
  | .get key =>
    let (result, host) := s.store.get s.host key
    (some (.handles (result.map fun x => showing host [x])), ⟨s.store, host⟩)
  | .snapshot =>
    let (result, host) := s.store.snapshot s.host
    (some (.content result), ⟨s.store, host⟩)
  | .restore content =>
    let (result, store, host) := s.store.restore s.host content
    (some (.done result), ⟨store, host⟩)

/-- The session after several acts. -/
def acted (s : Session) (as : List Act) : Session := as.foldl (fun s a => (s.act a).2) s

/-- What the client is told in the course of several acts. -/
def told (s : Session) : List Act → List Reply
  | [] => []
  | a :: as => (s.act a).1.toList ++ (s.act a).2.told as

/-- A cell and the store have nothing to do with each other.  Changes through the handle
may be left out, and the client is told the same; only if it hands the store that very
handle it is told what comes of the changes.  And what the handle shows comes from the
changes through it alone, whatever else is done. -/
structure Apart (s : Session) (x : Handle) : Prop where
  unseen : ∀ later, (∀ a ∈ later, x ∉ a.given) →
    s.told later = s.told (later.filter fun a => (a.changes x).isEmpty)
  unmoved : ∀ later,
    (s.acted later).shown x = (later.flatMap (Act.changes x)).foldl Metric.change (s.shown x)

end Session

/-! ## Cells that are replaced -/

namespace Heap

variable {heap : Heap} {x y : Handle}

theorem alloc_set (hx : x.index < heap.size) (n m : Metric) :
    (heap.set x n).alloc m = ((heap.alloc m).1, (heap.alloc m).2.set x n) := by
  unfold alloc next set size at *
  rw [List.length_set, List.set_append_left _ _ hx]

/-- New cells are made alike whatever is in a cell that was there. -/
theorem allocAll_set (hx : x.index < heap.size) (n : Metric) (ms : List Metric) :
    (heap.set x n).allocAll ms = ((heap.allocAll ms).1, (heap.allocAll ms).2.set x n) := by
  unfold allocAll set size at *
  rw [List.length_set, List.set_append_left _ _ hx]

theorem set_comm (hne : y ≠ x) (n m : Metric) :
    (heap.set x n).set y m = (heap.set y m).set x n := by
  have hindex : x.index ≠ y.index := by
    intro hindex
    cases x
    cases y
    exact hne (congrArg Handle.mk hindex.symm)
  unfold set
  rw [List.set_comm _ _ hindex]

/-- The last metric that is set in a cell counts. -/
theorem set_set (heap : Heap) (x : Handle) (n m : Metric) :
    (heap.set x n).set x m = heap.set x m := by
  unfold set
  rw [List.set_set]

theorem set_get_self (hx : x.index < heap.size) : heap.set x (heap.get x) = heap := by
  have hlt : x.index < heap.cells.length := hx
  have hget : heap.get x = heap.cells[x.index] := get_eq_of_get? (List.getElem?_eq_getElem hlt)
  rw [hget]
  exact congrArg Heap.mk (List.set_getElem_self hlt)

theorem get_set_self (hx : x.index < heap.size) (n : Metric) : (heap.set x n).get x = n := by
  rw [heap.get_set x x n hx, if_pos rfl]

/-- A change sets its cell to what becomes of the metric in it. -/
theorem change_eq_set (hx : x.index < heap.size) (c : Change) :
    heap.change x c = heap.set x ((heap.get x).change c) := by
  cases c with
  | update u =>
    rw [change, update_snd, Metric.change]
    cases (heap.get x).update u with
    | ok m => rfl
    | error e => exact (set_get_self hx).symm
  | flush => rfl
  | acknowledge sent => rfl

theorem change_set (hx : x.index < heap.size) (n : Metric) (c : Change) :
    (heap.set x n).change x c = heap.set x (n.change c) := by
  have hx' : x.index < (heap.set x n).size := by
    rw [size_set]
    exact hx
  rw [change_eq_set hx', get_set_self hx, set_set]

/-- A change of another cell does not see what was set in this one. -/
theorem change_set_of_ne (hne : y ≠ x) (n : Metric) (c : Change) :
    (heap.set x n).change y c = (heap.change y c).set x n := by
  have hget : (heap.set x n).get y = heap.get y := get_set_of_ne heap hne.symm n
  cases c with
  | update u =>
    rw [change, change, update_snd, update_snd, hget]
    cases (heap.get y).update u with
    | ok m => exact set_comm hne n m
    | error e => rfl
  | flush =>
    rw [change, change, flush, flush, hget]
    exact set_comm hne n _
  | acknowledge sent =>
    rw [change, change, acknowledge, acknowledge, hget]
    exact set_comm hne n _

/-- An update of another cell does not see what was set in this one. -/
theorem update_set (hne : y ≠ x) (n : Metric) (u : Value) :
    (heap.set x n).update y u = ((heap.update y u).1, (heap.update y u).2.set x n) := by
  have hget : (heap.set x n).get y = heap.get y := get_set_of_ne heap hne.symm n
  rw [update, update, hget]
  cases (heap.get y).update u with
  | ok m => exact Prod.ext rfl (set_comm hne n m)
  | error e => rfl

end Heap

/-! ## Stores that take no notice -/

namespace Memory

variable {heap : Heap} {m : Memory} {x h : Handle}

/-- A cell of memory is not one that memory does not have. -/
theorem ne_of_get? {key : Key} {cell : Handle} (hcell : m.get? key = some cell)
    (hx : x ∉ m.handles) : cell ≠ x := by
  rintro rfl
  rcases List.lookup_eq_some_iff.1 hcell with ⟨before, after, hsplit, -⟩
  refine hx (List.mem_map.2 ⟨(key, cell), ?_, rfl⟩)
  rw [hsplit]
  exact List.mem_append_right _ List.mem_cons_self

/-- A cell that is none of the store's, and is not handed to it, makes no difference to
an update. -/
theorem addOne_set (hvalid : x.index < heap.size) (hx : x ∉ m.handles) (hne : h ≠ x) (n : Metric) :
    addOne (heap.set x n) m h =
      ((addOne heap m h).1, (addOne heap m h).2.1.set x n, (addOne heap m h).2.2) := by
  have hget : (heap.set x n).get h = heap.get h := Heap.get_set_of_ne heap hne.symm n
  unfold addOne
  simp only [hget]
  cases hcell : m.get? (heap.get h).key with
  | none =>
    cases (heap.get h).addTo none with
    | error e => rfl
    | ok next =>
      have hvalid' : x.index < (heap.alloc next).2.size := by
        rw [Heap.size_alloc]
        exact Nat.lt_succ_of_lt hvalid
      simp only [Heap.alloc_set hvalid, Heap.alloc_set hvalid']
  | some cell =>
    simp only [Heap.update_set (ne_of_get? hcell hx)]
    have hsize := heap.size_update cell (heap.get h).value
    rcases hupdate : heap.update cell (heap.get h).value with ⟨result, heap'⟩
    rw [hupdate] at hsize
    cases result with
    | error e => rfl
    | ok v => simp only [Heap.alloc_set (hvalid.trans_eq hsize.symm)]

/-- A cell that was there is none of the store's after an update, if it was none
before. -/
theorem not_mem_handles_addOne (hvalid : x.index < heap.size) (hx : x ∉ m.handles) (h : Handle) :
    x ∉ (addOne heap m h).2.2.handles := by
  have hone := addsOne_addOne heap m h
  generalize addOne heap m h = result at hone ⊢
  cases hone with
  | refused e => exact hx
  | made next missing =>
    simp only [handles, List.map_append, List.map_singleton, List.mem_append, List.mem_singleton]
    rintro (hold | rfl)
    · exact hx hold
    · exact Nat.lt_irrefl _ hvalid
  | changed found next answer => exact hx

/-- A cell outside memory shows the same after an update, whatever that is. -/
theorem get_addOne (hvalid : x.index < heap.size) (hx : x ∉ m.handles) (h : Handle) :
    (addOne heap m h).2.1.get x = heap.get x := by
  have hone := addsOne_addOne heap m h
  generalize addOne heap m h = result at hone ⊢
  cases hone with
  | refused e => rfl
  | made next missing =>
    have hvalid' : x.index < (heap.alloc next).2.size := by
      rw [Heap.size_alloc]
      exact Nat.lt_succ_of_lt hvalid
    exact (Heap.get_alloc_of_lt hvalid' next).trans (Heap.get_alloc_of_lt hvalid next)
  | @changed cell found next answer =>
    have hvalid' : x.index < (heap.set cell next).size := by
      rw [Heap.size_set]
      exact hvalid
    exact (Heap.get_alloc_of_lt hvalid' answer).trans
      (Heap.get_set_of_ne heap (ne_of_get? found hx) next)

/-- Nothing is noticed of several updates through a cell that is none of the store's. -/
theorem foreign_add (hvalid : x.index < heap.size) (hx : x ∉ m.handles) (hs : List Handle) :
    x.index < (add heap m hs).2.1.size ∧ x ∉ (add heap m hs).2.2.handles ∧
      (add heap m hs).2.1.get x = heap.get x := by
  refine preserves_add (P := fun heap' m' => x.index < heap'.size ∧ x ∉ m'.handles ∧
    heap'.get x = heap.get x) ?_ ⟨hvalid, hx, rfl⟩ hs
  rintro heap' m' h ⟨hvalid', hx', hget⟩
  exact ⟨hvalid'.trans_le (size_le_addOne heap' m' h), not_mem_handles_addOne hvalid' hx' h,
    (get_addOne hvalid' hx' h).trans hget⟩

/-- Updates do not see what is in a cell outside memory that is none of theirs. -/
theorem add_set (hvalid : x.index < heap.size) (hx : x ∉ m.handles) {hs : List Handle}
    (hgiven : x ∉ hs) (n : Metric) :
    add (heap.set x n) m hs =
      ((add heap m hs).1, (add heap m hs).2.1.set x n, (add heap m hs).2.2) := by
  induction hs generalizing heap m with
  | nil => rfl
  | cons h hs ih =>
    rw [List.mem_cons, not_or] at hgiven
    have hone := not_mem_handles_addOne hvalid hx h
    have hsize := size_le_addOne heap m h
    rw [add, add, addOne_set hvalid hx (Ne.symm hgiven.1)]
    rcases haddOne : addOne heap m h with ⟨result, heap', m'⟩
    rw [haddOne] at hone hsize
    cases result with
    | error e => rfl
    | ok answer => simp only [ih (hvalid.trans_le hsize) hone hgiven.2]

/-- What is in a cell outside memory makes no difference to its metrics. -/
theorem metrics_set (heap : Heap) (hx : x ∉ m.handles) (n : Metric) :
    m.metrics (heap.set x n) = m.metrics heap := by
  refine List.map_congr_left fun y hy => Heap.get_set_of_ne heap ?_ n
  rintro rfl
  exact hx (List.mem_map_of_mem hy)

/-- What is in a cell makes no difference to a restore. -/
theorem restore_set (hvalid : x.index < heap.size) (n : Metric) (content : Snapshot) :
    restore (heap.set x n) m content =
      ((restore heap m content).1, (restore heap m content).2.1.set x n,
        (restore heap m content).2.2) := by
  unfold restore
  cases content.parse with
  | error e => rfl
  | ok ms => simp only [Heap.allocAll_set hvalid]

/-- A restore gives up no cell. -/
theorem size_le_restore (heap : Heap) (m : Memory) (content : Snapshot) :
    heap.size ≤ (restore heap m content).2.1.size := by
  unfold restore
  cases content.parse with
  | error e => exact Nat.le_refl _
  | ok ms =>
    simp only [Heap.allocAll, Heap.size, List.length_append]
    exact Nat.le_add_right _ _

end Memory

namespace Session

open Client

variable {s : Session} {x y : Handle}

/-- A session in which a cell shows something else. -/
def set (s : Session) (x : Handle) (n : Metric) : Session :=
  ⟨s.store, { s.host with heap := s.host.heap.set x n }⟩

/-- A handle has a cell that is none of the store's. -/
structure Foreign (s : Session) (x : Handle) : Prop where
  valid : x.index < s.host.heap.size
  apart : x ∉ s.store.handles

theorem showing_set (host : Host) {hs : List Handle} (hx : x ∉ hs) (n : Metric) :
    showing { host with heap := host.heap.set x n } hs = showing host hs := by
  refine List.map_congr_left fun y hy => Prod.ext rfl (Heap.get_set_of_ne host.heap ?_ n)
  rintro rfl
  exact hx hy

/-- An answer shows nothing of a cell that it does not hand out. -/
theorem map_showing_set (host : Host) {result : Outcome (List Handle)}
    (hx : ∀ hs, result = .ok hs → x ∉ hs) (n : Metric) :
    result.map (showing { host with heap := host.heap.set x n }) = result.map (showing host) := by
  cases result with
  | error e => rfl
  | ok hs => exact congrArg Except.ok (showing_set host (hx hs rfl) n)

/-- Nothing of a cell is given that is not among the handles. -/
theorem getAll_set (host : Host) {hs : List Handle} (hx : x ∉ hs) (n : Metric) :
    Host.getAll { host with heap := host.heap.set x n } hs = host.getAll hs := by
  refine List.map_congr_left fun y hy => Heap.get_set_of_ne host.heap ?_ n
  rintro rfl
  exact hx hy

/-! ### Answers in fresh cells -/

section

variable {host : Host}

/-- The metrics of an answer are put in fresh cells. -/
theorem answer_set (host : Host) (result : Outcome (List Metric)) (hx : x.index < host.heap.size)
    (n : Metric) :
    Store.answer result { host with heap := host.heap.set x n } =
      ((Store.answer result host).1,
        { (Store.answer result host).2 with
          heap := (Store.answer result host).2.heap.set x n }) := by
  cases result with
  | error e => rfl
  | ok ms => simp only [Store.answer, Host.allocAll, Heap.allocAll_set hx]

/-- A single metric of an answer is put in a fresh cell. -/
theorem found_set (host : Host) (result : Outcome Metric) (hx : x.index < host.heap.size)
    (n : Metric) :
    Store.found result { host with heap := host.heap.set x n } =
      ((Store.found result host).1,
        { (Store.found result host).2 with
          heap := (Store.found result host).2.heap.set x n }) := by
  cases result with
  | error e => rfl
  | ok m => simp only [Store.found, Host.alloc, Heap.alloc_set hx]

/-- The handles of an answer are those of the fresh cells. -/
theorem size_le_of_mem_answer {result : Outcome (List Metric)} {hs : List Handle}
    (hresult : (Store.answer result host).1 = .ok hs) (hy : y ∈ hs) :
    host.heap.size ≤ y.index ∧ y.index < (Store.answer result host).2.heap.size := by
  cases result with
  | error e => cases hresult
  | ok ms =>
    cases hresult
    refine ⟨?_, Heap.index_lt_of_mem_allocAll hy⟩
    rcases List.mem_map.1 hy with ⟨i, -, rfl⟩
    exact Nat.le_add_right _ _

/-- The handle of a single answer is that of the fresh cell. -/
theorem size_le_of_found {result : Outcome Metric}
    (hresult : (Store.found result host).1 = .ok y) :
    host.heap.size ≤ y.index ∧ y.index < (Store.found result host).2.heap.size := by
  cases result with
  | error e => cases hresult
  | ok m =>
    cases hresult
    refine ⟨Nat.le_refl _, ?_⟩
    show host.heap.size < (host.heap.alloc m).2.size
    rw [Heap.size_alloc]
    exact Nat.lt_succ_self _

end

/-! ### Acts -/

/-- No act gives up a cell. -/
theorem size_le_act (s : Session) (a : Act) : s.host.heap.size ≤ (s.act a).2.host.heap.size := by
  rcases s with ⟨store, heap, disk⟩
  have hanswer (result : Outcome (List Metric)) (disk : Disk) :
      heap.size ≤ (Store.answer result ⟨heap, disk⟩).2.heap.size := by
    cases result with
    | error e => exact Nat.le_refl _
    | ok ms =>
      simp only [Store.answer, Host.allocAll, Heap.allocAll, Heap.size, List.length_append]
      exact Nat.le_add_right _ _
  have hfound (result : Outcome Metric) (disk : Disk) :
      heap.size ≤ (Store.found result ⟨heap, disk⟩).2.heap.size := by
    cases result with
    | error e => exact Nat.le_refl _
    | ok m =>
      simp only [Store.found, Host.alloc, Heap.size_alloc]
      exact Nat.le_succ _
  cases a with
  | make m =>
    simp only [act, Host.alloc, Heap.size_alloc]
    exact Nat.le_succ _
  | change y c => exact Nat.le_of_eq (heap.size_change y c).symm
  | add hs =>
    cases store with
    | memory m => exact Memory.size_le_add heap m hs
    | disabled => exact Nat.le_refl _
    | file f => exact hanswer _ _
    | database d => exact hanswer _ _
    | broken => exact Nat.le_refl _
  | get key =>
    cases store with
    | memory m => exact Nat.le_refl _
    | disabled => exact Nat.le_refl _
    | file f => exact hfound _ _
    | database d => exact hfound _ _
    | broken => exact Nat.le_refl _
  | snapshot => cases store <;> exact Nat.le_refl _
  | restore content =>
    cases store with
    | memory m => exact Memory.size_le_restore heap m content
    | disabled => exact Nat.le_refl _
    | file f => exact Nat.le_refl _
    | database d => exact Nat.le_refl _
    | broken => exact Nat.le_refl _

namespace Foreign

/-- What a cell shows that is none of the store's makes no difference to what the client
is told, or to anything but what the cell shows afterwards. -/
theorem act_set (h : s.Foreign x) {a : Act} (hgiven : x ∉ a.given) (n : Metric) :
    (s.set x n).act a = ((s.act a).1, (s.act a).2.set x ((a.changes x).foldl Metric.change n)) := by
  rcases s with ⟨store, heap, disk⟩
  have hvalid : x.index < heap.size := h.valid
  have hx : x ∉ store.handles := h.apart
  have hanswer {result : Outcome (List Metric)} {disk : Disk} {hs : List Handle}
      (hresult : (Store.answer result ⟨heap, disk⟩).1 = .ok hs) : x ∉ hs := fun hmem =>
    Nat.lt_irrefl _ (hvalid.trans_le (size_le_of_mem_answer hresult hmem).1)
  have hfound {result : Outcome Metric} {disk : Disk} {y : Handle}
      (hresult : (Store.found result ⟨heap, disk⟩).1 = .ok y) : x ∉ [y] := by
    rw [List.mem_singleton]
    rintro rfl
    exact Nat.lt_irrefl _ (hvalid.trans_le (size_le_of_found hresult).1)
  cases a with
  | make m =>
    have hne : x ∉ [heap.next] := by
      rw [List.mem_singleton]
      rintro rfl
      exact Nat.lt_irrefl _ hvalid
    simp only [act, set, Host.alloc, Heap.alloc_set hvalid]
    rw [Heap.alloc_fst, showing_set ⟨(heap.alloc m).2, disk⟩ hne]
    rfl
  | change y c =>
    simp only [act, set, Act.changes]
    split
    · rename_i heq
      rw [heq, Heap.change_set hvalid, Heap.change_eq_set hvalid, Heap.set_set]
      rfl
    · rename_i hne
      rw [Heap.change_set_of_ne hne]
      rfl
  | add hs =>
    have hgetAll (disk : Disk) : Host.getAll ⟨heap.set x n, disk⟩ hs = Host.getAll ⟨heap, disk⟩ hs :=
      getAll_set ⟨heap, disk⟩ hgiven n
    have hanswerSet (result : Outcome (List Metric)) (disk : Disk) :
        Store.answer result ⟨heap.set x n, disk⟩ = _ :=
      answer_set ⟨heap, disk⟩ result hvalid n
    cases store with
    | memory m =>
      have hcells : x ∉ m.handles := hx
      have hupdates : x ∉ hs := hgiven
      have hadd := Memory.add_set hvalid hcells hupdates n
      simp only [act, set, Store.add, hadd]
      refine Prod.ext (congrArg (some ∘ Reply.handles) (map_showing_set
        ⟨(m.add heap hs).2.1, disk⟩ (fun answers hadd hmem => ?_) n)) rfl
      exact Nat.lt_irrefl _ (hvalid.trans_le (Memory.size_le_of_mem_add hadd hmem).1)
    | disabled =>
      exact Prod.ext (congrArg (some ∘ Reply.handles) (map_showing_set
        ⟨heap, disk⟩ (fun answers hadd => by cases hadd; exact hgiven) n)) rfl
    | file f =>
      simp only [act, set, Store.add, hgetAll, hanswerSet]
      exact Prod.ext (congrArg (some ∘ Reply.handles) (map_showing_set _
        (fun answers hresult => hanswer hresult) n)) rfl
    | database d =>
      simp only [act, set, Store.add, hgetAll, hanswerSet]
      exact Prod.ext (congrArg (some ∘ Reply.handles) (map_showing_set _
        (fun answers hresult => hanswer hresult) n)) rfl
    | broken => rfl
  | get key =>
    have hfoundSet (result : Outcome Metric) (disk : Disk) :
        Store.found result ⟨heap.set x n, disk⟩ = _ :=
      found_set ⟨heap, disk⟩ result hvalid n
    -- only the store in memory gives away a cell that was there before
    have hone (host : Host) {result : Outcome Handle} (hne : ∀ y, result = .ok y → x ∉ [y]) :
        result.map (fun y => showing { host with heap := host.heap.set x n } [y]) =
          result.map fun y => showing host [y] := by
      cases result with
      | error e => rfl
      | ok y => exact congrArg Except.ok (showing_set host (hne y rfl) n)
    cases store with
    | memory m =>
      refine Prod.ext (congrArg (some ∘ Reply.handles) (hone ⟨heap, disk⟩
        fun y hget => ?_)) rfl
      have hcell : m.get key = .ok y := hget
      unfold Memory.get at hcell
      cases hkey : m.get? key with
      | none =>
        rw [hkey] at hcell
        cases hcell
      | some cell =>
        rw [hkey] at hcell
        cases hcell
        exact fun hmem => Memory.ne_of_get? hkey hx (List.mem_singleton.1 hmem).symm
    | disabled => rfl
    | file f =>
      simp only [act, set, Store.get, hfoundSet]
      exact Prod.ext (congrArg (some ∘ Reply.handles) (hone _ fun y => hfound)) rfl
    | database d =>
      simp only [act, set, Store.get, hfoundSet]
      exact Prod.ext (congrArg (some ∘ Reply.handles) (hone _ fun y => hfound)) rfl
    | broken => rfl
  | snapshot =>
    cases store with
    | memory m =>
      have hmetrics := Memory.metrics_set heap hx n
      simp only [act, set, Store.snapshot, Memory.snapshot, hmetrics]
      rfl
    | disabled => rfl
    | file f => rfl
    | database d => rfl
    | broken => rfl
  | restore content =>
    cases store with
    | memory m =>
      simp only [act, set, Store.restore, Memory.restore_set hvalid]
      rfl
    | disabled => rfl
    | file f => rfl
    | database d => rfl
    | broken => rfl

/-- A cell that is none of the store's never becomes one. -/
theorem act (h : s.Foreign x) (a : Act) : (s.act a).2.Foreign x := by
  refine ⟨h.valid.trans_le (s.size_le_act a), ?_⟩
  rcases s with ⟨store, heap, disk⟩
  have hx : x ∉ store.handles := h.apart
  cases store with
  | memory m =>
    cases a with
    | make n => exact hx
    | change y c => exact hx
    | add hs => exact (Memory.foreign_add h.valid hx hs).2.1
    | get key => exact hx
    | snapshot => exact hx
    | restore content =>
      rcases Heap.exists_get?_of_lt h.valid with ⟨n, hget⟩
      exact (Memory.spares_restore heap m content x n hget hx).2
  | disabled => cases a <;> exact List.not_mem_nil
  | file f => cases a <;> exact List.not_mem_nil
  | database d => cases a <;> exact List.not_mem_nil
  | broken => cases a <;> exact List.not_mem_nil

/-- A handle that the store does not share shows what its own changes come to. -/
theorem shown_act (h : s.Foreign x) (a : Act) :
    (s.act a).2.shown x = (a.changes x).foldl Metric.change (s.shown x) := by
  by_cases hgiven : x ∈ a.given
  · -- what is handed to the store is read and no more
    cases a with
    | add hs =>
      rcases s with ⟨store, heap, disk⟩
      have hanswer (result : Outcome (List Metric)) (disk : Disk) :
          (Store.answer result ⟨heap, disk⟩).2.heap.get x = heap.get x := by
        cases result with
        | error e => rfl
        | ok ms => exact Heap.get_allocAll_of_lt h.valid ms
      cases store with
      | memory m => exact (Memory.foreign_add h.valid h.apart hs).2.2
      | disabled => rfl
      | file f => exact hanswer _ _
      | database d => exact hanswer _ _
      | broken => rfl
    | make m => cases hgiven
    | change y c => cases hgiven
    | get key => cases hgiven
    | snapshot => cases hgiven
    | restore content => cases hgiven
  · have hact := h.act_set hgiven (s.shown x)
    have hself : s.set x (s.shown x) = s := by
      rcases s with ⟨store, heap, disk⟩
      exact congrArg (fun heap => Session.mk store ⟨heap, disk⟩) (Heap.set_get_self h.valid)
    rw [hself] at hact
    rw [congrArg Prod.snd hact]
    exact Heap.get_set_self (h.act a).valid _

/-- What the client is told does not depend on what is in a cell that is none of the
store's, unless its handle is given to the store. -/
theorem told_set (h : s.Foreign x) {as : List Act} (hgiven : ∀ a ∈ as, x ∉ a.given) (n : Metric) :
    (s.set x n).told as = s.told as := by
  induction as generalizing s n with
  | nil => rfl
  | cons a as ih =>
    have hact := h.act_set (hgiven a List.mem_cons_self) n
    rw [told, told, hact]
    exact congrArg _ (ih (h.act a) (fun b hb => hgiven b (List.mem_cons_of_mem _ hb)) _)

/-- A handle that the store does not share is apart from it. -/
theorem isApart (h : s.Foreign x) : s.Apart x := by
  constructor
  · intro later hgiven
    induction later generalizing s with
    | nil => rfl
    | cons a later ih =>
      have hrest : ∀ b ∈ later, x ∉ b.given := fun b hb => hgiven b (List.mem_cons_of_mem _ hb)
      rw [List.filter_cons]
      split
      · rw [told, told, ih (h.act a) hrest]
      · rename_i hchange
        rw [← ih h hrest]
        cases a with
        | change y c =>
          have hself : y = x := by
            by_contra hne
            exact hchange (by simp only [Act.changes, if_neg hne, List.isEmpty_nil])
          have hset : (s.act (.change y c)).2 = s.set x ((s.shown x).change c) := by
            rw [hself]
            exact congrArg (fun heap => Session.mk s.store ⟨heap, s.host.disk⟩)
              (Heap.change_eq_set h.valid c)
          show (s.act (.change y c)).2.told later = s.told later
          rw [hset, h.told_set hrest]
        | make m => exact absurd rfl hchange
        | add hs => exact absurd rfl hchange
        | get key => exact absurd rfl hchange
        | snapshot => exact absurd rfl hchange
        | restore content => exact absurd rfl hchange
  · intro later
    induction later generalizing s with
    | nil => rfl
    | cons a later ih =>
      rw [List.flatMap_cons, List.foldl_append, ← h.shown_act a]
      exact ih (h.act a)

end Foreign

end Session

end MetricRelay
