import MetricRelay.Proofs.Store.Clients
import MetricRelay.Proofs.Store.Restorable

/-!
# Who shares a cell with a store

Only the store in memory gives away its own cells, and only to those who ask for one by
its key.  A handle that was given to a store for an update, or came as the answer to one,
is the client's alone.  One that was asked for is live, in both directions, until the
content of the store is replaced.  Files and databases share no cell with anybody.

Main definitions:

- `Session.Ran`: a session in which a client uses the handles that it has.
- `Session.Live`: a cell is that of a key in the store.
- `Session.Shares`: which handles are live, and which are apart.

Main results:

- `Session.live_of_isCell`: what follows for a cell of the store.
- `Session.Ran.shares`: every run.
-/

namespace MetricRelay

/-! ## Runs -/

namespace Client

/-- What a client did and was told, the latest first. -/
abbrev Past := List (Act × Option Reply)

/-- The handles of a reply. -/
def Reply.handed : Option Reply → List Handle
  | some (.handles (.ok shown)) => shown.map Prod.fst
  | _ => []

/-- The handles that an act uses. -/
def Act.used : Act → List Handle
  | change x _ => [x]
  | add hs => hs
  | _ => []

/-- What is given to the store is used. -/
theorem Act.given_subset_used (a : Act) : a.given ⊆ a.used := by
  cases a with
  | add hs => exact fun _ hy => hy
  | make m => exact List.nil_subset _
  | change x c => exact List.nil_subset _
  | get key => exact List.nil_subset _
  | snapshot => exact List.nil_subset _
  | restore content => exact List.nil_subset _

/-- The store was asked for a key, and gave a handle. -/
def Past.Got (past : Past) (key : Key) (x : Handle) : Prop :=
  ∃ n, (.get key, some (.handles (.ok [(x, n)]))) ∈ past

/-- The content of the store was replaced. -/
def Past.Restored (past : Past) : Prop :=
  ∃ content, (.restore content, some (.done (.ok ()))) ∈ past

/-- A handle was given to the store for an update, or came as the answer to one. -/
def Past.Passed (past : Past) (x : Handle) : Prop :=
  ∃ hs reply, (.add hs, reply) ∈ past ∧ (x ∈ hs ∨ x ∈ Reply.handed reply)

/-- A handle was used, or came with a reply. -/
def Past.Mentions (past : Past) (x : Handle) : Prop :=
  ∃ e ∈ past, x ∈ e.1.used ∨ x ∈ Reply.handed e.2

/-- A handle is one of a cell from before, or came with a reply. -/
def Past.Has (start : Session) (past : Past) (x : Handle) : Prop :=
  x.index < start.host.heap.size ∨ ∃ e ∈ past, x ∈ Reply.handed e.2

end Client

namespace Session

open Client

/-- A session after whatever a client did, with no other handles than those that it had
or was handed. -/
inductive Ran (start : Session) : Past → Session → Prop
  | nil : Ran start [] start
  | cons {past : Past} {s : Session} (a : Act) (before : Ran start past s)
      (has : ∀ x ∈ a.used, past.Has start x) : Ran start ((a, (s.act a).1) :: past) (s.act a).2

/-! ## Live cells -/

/-- The store gives a handle for a key, and what the handle shows is under the key in the
snapshot. -/
structure Sees (s : Session) (key : Key) (x : Handle) : Prop where
  get : s.act (.get key) = (some (.handles (.ok [(x, s.shown x)])), s)
  snapshot : ∃ t, s.act .snapshot = (some (.content (.ok t)), s) ∧
    t.lookup? key.kind.name key.name = some (s.shown x).value.canonical

/-- A cell is that of a key in the store.  The store sees what is done through its
handle, and what is done by the store is seen through the handle. -/
structure Live (s : Session) (key : Key) (x : Handle) : Prop where
  named : (s.shown x).key = key
  sees : s.Sees key x
  /-- A change through the handle is a change of what the store has. -/
  changed : ∀ c, (s.act (.change x c)).2.shown x = (s.shown x).change c ∧
    (s.act (.change x c)).2.Sees key x
  /-- An update of the key is added to what is seen through the handle. -/
  added : ∀ y n, s.host.heap.get? y = some n → n.key = key → n.value.isFinite = true →
    ∃ z s', s.act (.add [y]) =
        (some (.handles (.ok [(z, (s.shown x).change (.update n.value))])), s') ∧
      s'.shown x = (s.shown x).change (.update n.value)
  /-- After several updates the handle shows the last answer under its key. -/
  batch : ∀ hs answers, (∀ y ∈ hs, y.index < s.host.heap.size) →
    (s.act (.add hs)).1 = some (.handles (.ok answers)) →
    (s.act (.add hs)).2.shown x =
      ((answers.map Prod.snd).filter (·.key = key)).getLast?.getD (s.shown x)

/-- Which handles are live after a run, and which are apart. -/
structure Shares (start : Session) (past : Past) (s : Session) : Prop where
  /-- What was passed to the store, or came as an answer, is the client's own, unless it
  is also a handle that the store was asked for. -/
  passed : ∀ x, past.Passed x → (∀ key, ¬ past.Got key x) → s.Apart x
  /-- What the store was asked for is live until the content is replaced. -/
  live : (∃ m, start.store = .memory m) → ∀ later key x n before,
    past = later ++ (.get key, some (.handles (.ok [(x, n)]))) :: before → ¬ Past.Restored later →
    s.Live key x
  /-- When the content was replaced, no handle from before is one of the store. -/
  restored : ∀ later content before,
    past = later ++ (.restore content, some (.done (.ok ()))) :: before →
    ∀ x, Past.Has start before x → s.Apart x
  /-- A store that is not in memory shares no cell. -/
  elsewhere : (∀ m, start.store ≠ .memory m) → ∀ x, past.Mentions x → s.Apart x

end Session

/-! ## Cells of the store in memory -/

namespace Memory

variable {heap : Heap} {m : Memory} {c : Content} {key : Key} {x : Handle}

/-- A key stays with its cell. -/
theorem get?_addOne (heap : Heap) (hkey : m.get? key = some x) (h : Handle) :
    (addOne heap m h).2.2.get? key = some x := by
  have hone := addsOne_addOne heap m h
  generalize addOne heap m h = result at hone ⊢
  cases hone with
  | refused e => exact hkey
  | made next missing =>
    unfold get? at hkey ⊢
    simp only [List.lookup_append, hkey, Option.some_or]
  | changed found next answer => exact hkey

/-- A key keeps its cell when updates come in. -/
theorem get?_add (hkey : m.get? key = some x) (hs : List Handle) :
    (add heap m hs).2.2.get? key = some x :=
  preserves_add (P := fun _ m' => m'.get? key = some x)
    (fun heap' _ h hkey' => get?_addOne heap' hkey' h) hkey hs

/-- The cell of a key shows what the store holds under the key. -/
theorem Holds.get_eq_of_get? (h : Holds heap m c) (hkey : m.get? key = some x) :
    ∃ v, c.find? key = some v ∧ heap.get? x = some ⟨key.name, v⟩ := by
  have hfound := h.get?_eq key
  cases hv : c.find? key with
  | none =>
    rw [hv] at hfound
    rw [hfound] at hkey
    cases hkey
  | some v =>
    rw [hv] at hfound
    rcases hfound with ⟨cell, hcell, hget⟩
    obtain rfl : cell = x := Option.some.inj (hcell.symm.trans hkey)
    exact ⟨v, rfl, hget⟩

/-- An update that is taken is seen through the cell of its key, and through that of no
other key. -/
theorem Holds.get_addOne_of_get? (h : Holds heap m c) (hkey : m.get? key = some x) {y : Handle}
    {n : Metric} (hget : heap.get? y = some n) (hfinite : n.value.isFinite = true) :
    ∃ answer heap' m', addOne heap m y = (.ok answer, heap', m') ∧
      Holds heap' m' (c.put (c.next n)) ∧ heap'.get? answer = some (c.next n) ∧
      answer ∉ m'.handles ∧
      heap'.get x = if n.key = key then c.next n else heap.get x := by
  rcases addOne_of_isFinite h hget hfinite with
    ⟨answer, heap', m', hone, hholds, hanswer, hout, -⟩
  have hkey' := get?_addOne heap hkey y
  rw [hone] at hkey'
  rcases h.get_eq_of_get? hkey with ⟨v, hv, hx⟩
  rcases hholds.get_eq_of_get? hkey' with ⟨v', hv', hx'⟩
  refine ⟨answer, heap', m', hone, hholds, hanswer, hout, ?_⟩
  rw [Content.find?_put, Content.key_next] at hv'
  rw [Heap.get_eq_of_get? hx', Heap.get_eq_of_get? hx]
  split
  · rename_i hn
    rw [if_pos hn] at hv'
    have hname : (c.next n).name = key.name := by rw [← hn]; rfl
    rw [← hname, ← Option.some.inj hv']
  · rename_i hn
    rw [if_neg hn, hv] at hv'
    rw [Option.some.inj hv']

/-- An update that was taken is finite. -/
theorem Holds.isFinite_of_addOne (h : Holds heap m c) {y answer : Handle} {n : Metric}
    {heap' : Heap} {m' : Memory} (hget : heap.get? y = some n)
    (hone : addOne heap m y = (.ok answer, heap', m')) : n.value.isFinite = true := by
  by_contra hn
  rw [addOne_of_not_isFinite h hget (Bool.eq_false_iff.2 hn)] at hone
  cases hone

/-- After updates the cell of a key shows the last answer under the key. -/
theorem Holds.get_add_of_get? (h : Holds heap m c) (hc : c.Sound) (hkey : m.get? key = some x)
    {hs answers : List Handle} (hvalid : ∀ y ∈ hs, y.index < heap.size)
    (hadd : (add heap m hs).1 = .ok answers) :
    (add heap m hs).2.1.get x =
      ((answers.map (add heap m hs).2.1.get).filter (·.key = key)).getLast?.getD (heap.get x) := by
  induction hs generalizing heap m c answers with
  | nil =>
    cases hadd
    rfl
  | cons y hs ih =>
    rcases add_cons_eq_ok hadd with ⟨answer, heap', m', others, hone, hothers, rfl, hafter⟩
    rcases Heap.exists_get?_of_lt (hvalid y List.mem_cons_self) with ⟨n, hget⟩
    have hn := h.isFinite_of_addOne hget hone
    have hsize := size_le_addOne heap m y
    have hkey' := get?_addOne heap hkey y
    rcases h.get_addOne_of_get? hkey hget hn with
      ⟨answer', heap₁, m₁, hone', hholds, hanswer, hout, hx⟩
    cases hone.symm.trans hone'
    rw [hone] at hsize hkey'
    have hrest := ih hholds (hc.put (c.isFinite_next hn)) hkey'
      (fun z hz => (hvalid z (List.mem_cons_of_mem _ hz)).trans_le hsize) hothers
    have hfirst : (add heap' m' hs).2.1.get answer = c.next n := by
      rw [(foreign_add (Heap.index_lt_of_get? hanswer) hout hs).2.2, Heap.get_eq_of_get? hanswer]
    simp only [hafter, List.map_cons, hfirst, hrest, hx, List.filter_cons, Content.key_next,
      decide_eq_true_eq]
    split
    · rw [List.getLast?_cons, Option.getD_some]
    · rfl

/-- What comes as an answer is no cell of the store. -/
theorem Holds.not_mem_handles_of_mem_add (h : Holds heap m c) (hc : c.Sound)
    {hs answers : List Handle} (hvalid : ∀ y ∈ hs, y.index < heap.size)
    (hadd : (add heap m hs).1 = .ok answers) (hx : x ∈ answers) :
    x ∉ (add heap m hs).2.2.handles := by
  induction hs generalizing heap m c answers with
  | nil =>
    cases hadd
    cases hx
  | cons y hs ih =>
    rcases add_cons_eq_ok hadd with ⟨answer, heap', m', others, hone, hothers, rfl, hafter⟩
    rcases Heap.exists_get?_of_lt (hvalid y List.mem_cons_self) with ⟨n, hget⟩
    have hn := h.isFinite_of_addOne hget hone
    have hsize := size_le_addOne heap m y
    rcases addOne_of_isFinite h hget hn with
      ⟨answer', heap₁, m₁, hone', hholds, hanswer, hout, -⟩
    cases hone.symm.trans hone'
    rw [hone] at hsize
    rw [hafter]
    rcases List.mem_cons.1 hx with rfl | hx
    · exact (foreign_add (Heap.index_lt_of_get? hanswer) hout hs).2.1
    · exact ih hholds (hc.put (c.isFinite_next hn))
        (fun z hz => (hvalid z (List.mem_cons_of_mem _ hz)).trans_le hsize) hothers hx

end Memory

/-! ## Sessions -/

namespace Session

open Client

variable {s : Session} {key : Key} {x : Handle} {m : Memory}

/-- If the store is in memory, it was made by calls and changes alone. -/
def Grounded (s : Session) : Prop := ∀ m, s.store = .memory m → Memory.Reached s.host.heap m

/-- A cell is that of a key in the store. -/
def IsCell (s : Session) (key : Key) (x : Handle) : Prop :=
  ∃ m, s.store = .memory m ∧ m.get? key = some x

/-- The cells of the store are there. -/
theorem Grounded.index_lt (h : s.Grounded) (hx : x ∈ s.store.handles) :
    x.index < s.host.heap.size := by
  rcases s with ⟨store, host⟩
  cases store with
  | memory m =>
    rcases (h m rfl).holds with ⟨c, hholds, -⟩
    rcases hholds.exists_get? hx with ⟨n, hget⟩
    exact Heap.index_lt_of_get? hget
  | disabled => cases hx
  | file f => cases hx
  | database d => cases hx
  | broken => cases hx

/-- The cells of the store are there after every act. -/
theorem Grounded.act (h : s.Grounded) {a : Act} (hgiven : ∀ y ∈ a.given, y.index < s.host.heap.size) :
    (s.act a).2.Grounded := by
  rcases s with ⟨store, heap, disk⟩
  cases store with
  | memory m =>
    have hreached : Memory.Reached heap m := h m rfl
    intro m' hm'
    cases a with
    | make n =>
      cases hm'
      exact hreached.alloc n
    | change y c =>
      cases hm'
      cases c with
      | update u => exact hreached.update y u
      | flush => exact hreached.flush y
      | acknowledge sent => exact hreached.acknowledge y sent
    | add hs =>
      cases hm'
      exact hreached.add hgiven
    | get key =>
      cases hm'
      exact hreached
    | snapshot =>
      cases hm'
      exact hreached
    | restore content =>
      cases hm'
      exact hreached.restore content
  | disabled => cases a <;> exact fun m' hm' => by cases hm'
  | file f => cases a <;> exact fun m' hm' => by cases hm'
  | database d => cases a <;> exact fun m' hm' => by cases hm'
  | broken => cases a <;> exact fun m' hm' => by cases hm'

/-- A store in memory stays one, and no other becomes one. -/
theorem exists_memory_act (s : Session) (a : Act) :
    (∃ m, (s.act a).2.store = .memory m) ↔ ∃ m, s.store = .memory m := by
  rcases s with ⟨store, host⟩
  cases store with
  | memory m => cases a <;> exact ⟨fun _ => ⟨_, rfl⟩, fun _ => ⟨_, rfl⟩⟩
  | disabled => cases a <;> exact Iff.rfl
  | file f => cases a <;> exact Iff.rfl
  | database d => cases a <;> exact Iff.rfl
  | broken => cases a <;> exact Iff.rfl

/-! ### Handles of replies -/

/-- A handle in a reply is one of those answered. -/
theorem exists_of_mem_handed {host : Host} {result : Outcome (List Handle)}
    (hx : x ∈ Reply.handed (some (.handles (result.map (showing host))))) :
    ∃ hs, result = .ok hs ∧ x ∈ hs := by
  cases result with
  | error e => cases hx
  | ok hs =>
    have hfst : (showing host hs).map Prod.fst = hs := by
      unfold showing
      rw [List.map_map]
      exact List.map_id hs
    have hmem : x ∈ (showing host hs).map Prod.fst := hx
    rw [hfst] at hmem
    exact ⟨hs, rfl, hmem⟩

/-- A handle in a reply with one is that one. -/
theorem eq_of_mem_handed {host : Host} {result : Outcome Handle}
    (hx : x ∈ Reply.handed (some (.handles (result.map fun y => showing host [y])))) :
    result = .ok x := by
  cases result with
  | error e => cases hx
  | ok y => rw [List.mem_singleton.1 (show x ∈ [y] from hx)]

/-- A handle that comes with a reply has a cell.  It is none of the store's, unless the
store was asked for a key. -/
theorem Grounded.handed_act (h : s.Grounded) {a : Act}
    (hgiven : ∀ y ∈ a.given, y.index < s.host.heap.size) (hx : x ∈ Reply.handed (s.act a).1) :
    x.index < (s.act a).2.host.heap.size ∧ (x ∈ (s.act a).2.store.handles →
      ∃ key n, a = .get key ∧ (s.act a).1 = some (.handles (.ok [(x, n)]))) := by
  rcases s with ⟨store, heap, disk⟩
  cases a with
  | make m =>
    obtain rfl : x = heap.next := List.mem_singleton.1 (show x ∈ [heap.next] from hx)
    refine ⟨?_, fun hmem => ?_⟩
    · show heap.size < (heap.alloc m).2.size
      rw [Heap.size_alloc]
      exact Nat.lt_succ_self _
    · exact absurd (h.index_lt hmem) (Nat.lt_irrefl _)
  | change y c => cases hx
  | add hs =>
    rcases exists_of_mem_handed hx with ⟨answers, hresult, hmem⟩
    cases store with
    | memory m =>
      have hreached : Memory.Reached heap m := h m rfl
      rcases hreached.holds with ⟨c, hholds, hc⟩
      have hadd : (m.add heap hs).1 = .ok answers := hresult
      exact ⟨(Memory.size_le_of_mem_add hadd hmem).2, fun hin =>
        absurd hin (hholds.not_mem_handles_of_mem_add hc hgiven hadd hmem)⟩
    | disabled =>
      cases hresult
      exact ⟨hgiven x hmem, fun hin => by cases hin⟩
    | file f => exact ⟨(size_le_of_mem_answer hresult hmem).2, fun hin => by cases hin⟩
    | database d => exact ⟨(size_le_of_mem_answer hresult hmem).2, fun hin => by cases hin⟩
    | broken => cases hresult
  | get key =>
    have hresult := eq_of_mem_handed hx
    cases store with
    | memory m =>
      have hcell : m.get key = .ok x := hresult
      have hin : x ∈ m.handles := by
        unfold Memory.get at hcell
        cases hkey : m.get? key with
        | none =>
          rw [hkey] at hcell
          cases hcell
        | some cell =>
          rw [hkey] at hcell
          cases hcell
          by_contra hout
          exact Memory.ne_of_get? hkey hout rfl
      refine ⟨h.index_lt hin, fun _ => ⟨key, heap.get x, rfl, ?_⟩⟩
      simp only [Session.act, Store.get, hcell]
      rfl
    | disabled => cases hresult
    | file f => exact ⟨(size_le_of_found hresult).2, fun hin => by cases hin⟩
    | database d => exact ⟨(size_le_of_found hresult).2, fun hin => by cases hin⟩
    | broken => cases hresult
  | snapshot => cases hx
  | restore content => cases hx

/-- After the content was replaced no cell from before is one of the store. -/
theorem foreign_of_restored {content : Snapshot}
    (hdone : (s.act (.restore content)).1 = some (.done (.ok ())))
    (hx : x.index < s.host.heap.size) : (s.act (.restore content)).2.Foreign x := by
  refine ⟨hx.trans_le (s.size_le_act _), ?_⟩
  rcases s with ⟨store, heap, disk⟩
  cases store with
  | memory m =>
    cases hparse : content.parse with
    | error e =>
      simp only [act, Store.restore, Memory.restore, hparse] at hdone
      cases hdone
    | ok ms =>
      simp only [act, Store.restore, Memory.restore, hparse, Store.handles, Memory.handles]
      intro hmem
      rcases List.mem_map.1 hmem with ⟨y, hy, rfl⟩
      rcases Heap.exists_get?_of_lt hx with ⟨n, hget⟩
      exact Heap.not_mem_allocAll hget ms (List.of_mem_zip hy).2
  | disabled => exact List.not_mem_nil
  | file f => exact List.not_mem_nil
  | database d => exact List.not_mem_nil
  | broken => exact List.not_mem_nil

/-- What was asked for is the cell of the key. -/
theorem isCell_of_got {n : Metric} (hmemory : ∃ m, s.store = .memory m)
    (hgot : (s.act (.get key)).1 = some (.handles (.ok [(x, n)]))) :
    (s.act (.get key)).2.IsCell key x := by
  rcases s with ⟨store, heap, disk⟩
  rcases hmemory with ⟨m, rfl⟩
  refine ⟨m, rfl, ?_⟩
  cases hkey : m.get? key with
  | none =>
    simp only [act, Store.get, Memory.get, hkey] at hgot
    cases hgot
  | some cell =>
    simp only [act, Store.get, Memory.get, hkey] at hgot
    cases hgot
    rfl

/-- The cell of a key stays its cell until the content is replaced. -/
theorem IsCell.act (h : s.IsCell key x) {a : Act}
    (hkept : ∀ content, a = .restore content → (s.act a).1 ≠ some (.done (.ok ()))) :
    (s.act a).2.IsCell key x := by
  rcases s with ⟨store, heap, disk⟩
  rcases h with ⟨m, rfl, hkey⟩
  cases a with
  | make n => exact ⟨m, rfl, hkey⟩
  | change y c => exact ⟨m, rfl, hkey⟩
  | add hs => exact ⟨_, rfl, Memory.get?_add hkey hs⟩
  | get key => exact ⟨m, rfl, hkey⟩
  | snapshot => exact ⟨m, rfl, hkey⟩
  | restore content =>
    have hrefused := hkept content rfl
    cases hparse : content.parse with
    | error e =>
      refine ⟨m, ?_, hkey⟩
      simp only [Session.act, Store.restore, Memory.restore, hparse]
    | ok ms =>
      simp only [Session.act, Store.restore, Memory.restore, hparse] at hrefused
      exact absurd rfl hrefused

/-! ### Live cells -/

/-- A handle of the cell of a key sees the key. -/
theorem sees_of_isCell (hgrounded : s.Grounded) (h : s.IsCell key x) : s.Sees key x := by
  rcases s with ⟨store, heap, disk⟩
  rcases h with ⟨m, rfl, hkey⟩
  have hreached : Memory.Reached heap m := hgrounded m rfl
  rcases hreached.holds with ⟨c, hholds, hc⟩
  rcases hholds.get_eq_of_get? hkey with ⟨v, hv, hx⟩
  constructor
  · simp only [act, Store.get, Memory.get, hkey]
    rfl
  · refine ⟨m.snapshot heap, rfl, ?_⟩
    rw [hholds.snapshot_eq, Snapshot.lookup?_ofMetrics hc.distinct, Kind.ofName?_name,
      Option.bind_some, hv, shown, Heap.get_eq_of_get? hx]
    rfl

/-- The cell of a key is live. -/
theorem live_of_isCell (hgrounded : s.Grounded) (h : s.IsCell key x) : s.Live key x := by
  have hsees := sees_of_isCell hgrounded h
  have hchanged (c : Change) : (s.act (.change x c)).2.Sees key x :=
    sees_of_isCell (hgrounded.act fun y hy => by cases hy) (h.act fun _ ha => by cases ha)
  rcases s with ⟨store, heap, disk⟩
  rcases h with ⟨m, rfl, hkey⟩
  have hreached : Memory.Reached heap m := hgrounded m rfl
  rcases hreached.holds with ⟨c, hholds, hc⟩
  rcases hholds.get_eq_of_get? hkey with ⟨v, hv, hx⟩
  have hshown : heap.get x = ⟨key.name, v⟩ := Heap.get_eq_of_get? hx
  have hkind : v.kind = key.kind := Content.kind_of_find? hv
  refine ⟨?named, hsees, fun c => ⟨?changed, hchanged c⟩, ?added, ?batch⟩
  case named =>
    show (heap.get x).key = key
    rw [hshown, Metric.key, Metric.kind, hkind]
  case changed =>
    show (heap.change x c).get x = (heap.get x).change c
    rw [Heap.get_change (Heap.index_lt_of_get? hx), if_pos rfl]
  case added =>
    intro y n hget hn hfinite
    rcases hholds.get_addOne_of_get? hkey hget hfinite with
      ⟨answer, heap', m', hone, -, hanswer, -, hseen⟩
    have hnext : (⟨key.name, v⟩ : Metric).change (.update n.value) = c.next n := by
      have hadd := Metric.addTo_of_isFinite hfinite (some v) fun w hw => by
        cases hw
        rw [hkind, ← hn]
        rfl
      have hupdate : (⟨key.name, v⟩ : Metric).update n.value =
          .ok ⟨n.name, n.value.onto (some v)⟩ := by
        rw [← hn]
        exact hadd
      rw [Metric.change, hupdate, Content.next, hn, hv]
    refine ⟨answer, ⟨.memory m', ⟨heap', disk⟩⟩, ?_, ?_⟩
    · show (some (Reply.handles _), _) = _
      simp only [Memory.add, hone, Except.map, showing, List.map_cons, List.map_nil,
        Heap.get_eq_of_get? hanswer, shown, hshown, hnext]
    · show heap'.get x = (heap.get x).change (.update n.value)
      rw [hseen, if_pos hn, hshown, hnext]
  case batch =>
    intro hs answers hvalid hreply
    cases hadd : (m.add heap hs).1 with
    | error e =>
      simp only [act, Store.add, hadd] at hreply
      cases hreply
    | ok handles =>
      simp only [act, Store.add, hadd] at hreply
      cases hreply
      have hlast := hholds.get_add_of_get? hc hkey hvalid hadd
      simp only [showing, List.map_map]
      exact hlast

/-! ### Runs -/

namespace Ran

variable {start : Session} {past : Past}

/-- In a run the store is grounded, and every handle that the client has is one of a
cell. -/
theorem grounded (h : Ran start past s) (hstart : start.Grounded) :
    s.Grounded ∧ ∀ x, past.Has start x → x.index < s.host.heap.size := by
  induction h with
  | nil =>
    refine ⟨hstart, ?_⟩
    rintro x (hold | ⟨e, he, -⟩)
    · exact hold
    · cases he
  | @cons past s a _ has ih =>
    rcases ih with ⟨hgrounded, hvalid⟩
    have hgiven : ∀ y ∈ a.given, y.index < s.host.heap.size := fun y hy =>
      hvalid y (has y (a.given_subset_used hy))
    refine ⟨hgrounded.act hgiven, ?_⟩
    rintro x (hold | ⟨e, he, hx⟩)
    · exact (hvalid x (.inl hold)).trans_le (s.size_le_act a)
    · rcases List.mem_cons.1 he with rfl | he
      · exact (hgrounded.handed_act hgiven hx).1
      · exact (hvalid x (.inr ⟨e, he, hx⟩)).trans_le (s.size_le_act a)

/-- A client has the handles that it mentions. -/
theorem has_of_mentions (h : Ran start past s) (hx : past.Mentions x) : past.Has start x := by
  induction h with
  | nil =>
    rcases hx with ⟨e, he, -⟩
    cases he
  | @cons past s a _ has ih =>
    have hmore : past.Has start x → Past.Has start ((a, (s.act a).1) :: past) x := by
      rintro (hold | ⟨e, he, hx⟩)
      · exact .inl hold
      · exact .inr ⟨e, List.mem_cons_of_mem _ he, hx⟩
    rcases hx with ⟨e, he, hx⟩
    rcases List.mem_cons.1 he with rfl | he
    · rcases hx with hused | hhanded
      · exact hmore (has x hused)
      · exact .inr ⟨_, List.mem_cons_self, hhanded⟩
    · exact hmore (ih ⟨e, he, hx⟩)

/-- The only handles of the store's cells that a client has are those that it asked
for. -/
theorem got_of_mem_handles (h : Ran start past s) (hstart : start.Grounded)
    (hnone : start.store.handles = []) (hhas : past.Has start x) (hx : x ∈ s.store.handles) :
    ∃ key, past.Got key x := by
  induction h with
  | nil =>
    rw [hnone] at hx
    cases hx
  | @cons past s a before has ih =>
    rcases before.grounded hstart with ⟨hgrounded, hvalid⟩
    have hgiven : ∀ y ∈ a.given, y.index < s.host.heap.size := fun y hy =>
      hvalid y (has y (a.given_subset_used hy))
    have hbefore : past.Has start x → ∃ key, Past.Got ((a, (s.act a).1) :: past) key x := by
      intro hhas
      by_cases hin : x ∈ s.store.handles
      · rcases ih hhas hin with ⟨key, n, hgot⟩
        exact ⟨key, n, List.mem_cons_of_mem _ hgot⟩
      · have hforeign : s.Foreign x := ⟨hvalid x hhas, hin⟩
        exact absurd hx (hforeign.act a).apart
    rcases hhas with hold | ⟨e, he, hhanded⟩
    · exact hbefore (.inl hold)
    · rcases List.mem_cons.1 he with rfl | he
      · rcases (hgrounded.handed_act hgiven hhanded).2 hx with ⟨key, n, rfl, hreply⟩
        refine ⟨key, n, ?_⟩
        rw [hreply]
        exact List.mem_cons_self
      · exact hbefore (.inr ⟨e, he, hhanded⟩)

/-- A store is memory for good. -/
theorem exists_memory_iff (h : Ran start past s) :
    (∃ m, s.store = .memory m) ↔ ∃ m, start.store = .memory m := by
  induction h with
  | nil => exact Iff.rfl
  | @cons past s a _ _ ih => exact (s.exists_memory_act a).trans ih

/-- The last act of a run. -/
theorem exists_before {e : Act × Option Reply} (h : Ran start (e :: past) s) :
    ∃ s', Ran start past s' ∧ (s'.act e.1).1 = e.2 ∧ (s'.act e.1).2 = s := by
  cases h with
  | cons a before has => exact ⟨_, before, rfl, rfl⟩

/-- No handle from before the content was replaced is one of the store. -/
theorem foreign_of_restored {later before : Past} {content : Snapshot}
    (h : Ran start (later ++ (.restore content, some (.done (.ok ()))) :: before) s)
    (hstart : start.Grounded) (hx : before.Has start x) : s.Foreign x := by
  induction later generalizing s with
  | nil =>
    rcases h.exists_before with ⟨s', hbefore, hdone, rfl⟩
    exact Session.foreign_of_restored hdone ((hbefore.grounded hstart).2 x hx)
  | cons e later ih =>
    rcases h.exists_before with ⟨s', hbefore, -, rfl⟩
    exact (ih hbefore).act e.1

/-- What was asked for is the cell of its key until the content is replaced. -/
theorem isCell_of_got {later before : Past} {n : Metric}
    (h : Ran start (later ++ (.get key, some (.handles (.ok [(x, n)]))) :: before) s)
    (hmemory : ∃ m, start.store = .memory m) (hkept : ¬ Past.Restored later) :
    s.IsCell key x := by
  induction later generalizing s with
  | nil =>
    rcases h.exists_before with ⟨s', hbefore, hgot, rfl⟩
    exact Session.isCell_of_got (hbefore.exists_memory_iff.2 hmemory) hgot
  | cons e later ih =>
    rcases h.exists_before with ⟨s', hbefore, hreply, rfl⟩
    have hcell := ih hbefore fun ⟨content, hmem⟩ => hkept ⟨content, List.mem_cons_of_mem _ hmem⟩
    refine hcell.act fun content hrestore hdone => hkept ⟨content, ?_⟩
    have he : e = (.restore content, some (.done (.ok ()))) :=
      Prod.ext hrestore (hreply.symm.trans hdone)
    rw [he]
    exact List.mem_cons_self

/-- Who shares a cell with a store that was empty, or is not in memory, at the start. -/
theorem shares (h : Ran start past s) (hstart : ∀ m, start.store = .memory m → m = .empty) :
    Shares start past s := by
  have hgrounded : start.Grounded := by
    intro m hm
    rw [hstart m hm]
    exact .empty _
  have hnone : start.store.handles = [] := by
    rcases start with ⟨store, host⟩
    cases store with
    | memory m => rw [hstart m rfl]; rfl
    | disabled => rfl
    | file f => rfl
    | database d => rfl
    | broken => rfl
  have hvalid := (h.grounded hgrounded).2
  refine { passed := ?passed, live := ?live, restored := ?restored, elsewhere := ?elsewhere }
  case passed =>
    intro x hpassed hasked
    have hhas : past.Has start x := by
      rcases hpassed with ⟨hs, reply, he, hx⟩
      exact h.has_of_mentions ⟨_, he, hx⟩
    refine Foreign.isApart ⟨hvalid x hhas, fun hin => ?_⟩
    rcases h.got_of_mem_handles hgrounded hnone hhas hin with ⟨key, hgot⟩
    exact hasked key hgot
  case live =>
    rintro hmemory later key x n before rfl hkept
    exact live_of_isCell (h.grounded hgrounded).1 (h.isCell_of_got hmemory hkept)
  case restored =>
    rintro later content before rfl x hx
    exact (h.foreign_of_restored hgrounded hx).isApart
  case elsewhere =>
    intro hother x hx
    refine Foreign.isApart ⟨hvalid x (h.has_of_mentions hx), fun hin => ?_⟩
    rcases s with ⟨store, host⟩
    cases store with
    | memory m =>
      rcases h.exists_memory_iff.1 ⟨m, rfl⟩ with ⟨m', hm'⟩
      exact hother m' hm'
    | disabled => cases hin
    | file f => cases hin
    | database d => cases hin
    | broken => cases hin

/-- A counter is passed to a store in memory, and asked for.  What was passed and what
was answered show the same as before when the counter goes on, and a snapshot that is
refused changes nothing about it. -/
theorem shares_of_counter :
    let start : Session := ⟨.memory .empty, .ofDisk (.withDirectory ["data"])⟩
    let malformed := Snapshot.put .empty "counter" "polls" "many"
    let made := start.act (.make ⟨"polls", .total (.clamp 1)⟩)
    let added := made.2.act (.add [⟨0⟩])
    let asked := added.2.act (.get ⟨.counter, "polls"⟩)
    let changed := asked.2.act (.change ⟨1⟩ (.update (.total (.clamp 5))))
    let refused := changed.2.act (.restore malformed)
    let past : Past := [(.restore malformed, refused.1),
      (.change ⟨1⟩ (.update (.total (.clamp 5))), changed.1),
      (.get ⟨.counter, "polls"⟩, asked.1), (.add [⟨0⟩], added.1),
      (.make ⟨"polls", .total (.clamp 1)⟩, made.1)]
    (∀ m, start.store = .memory m → m = .empty) ∧ Ran start past refused.2 ∧
      Shares start past refused.2 ∧
      added.1 = some (.handles (.ok [(⟨2⟩, ⟨"polls", .total (.clamp 1)⟩)])) ∧
      asked.1 = some (.handles (.ok [(⟨1⟩, ⟨"polls", .total (.clamp 1)⟩)])) ∧
      refused.1 = some (.done (.error (.unreadable "counter" "many"))) ∧
      [0, 1, 2].map (fun i => refused.2.shown ⟨i⟩) =
        [⟨"polls", .total (.clamp 1)⟩, ⟨"polls", .total (.clamp 6)⟩,
          ⟨"polls", .total (.clamp 1)⟩] := by
  intro start malformed made added asked changed refused past
  have hstart : ∀ m, start.store = .memory m → m = .empty := by
    intro m hm
    cases hm
    rfl
  have hasked : asked.1 = some (.handles (.ok [(⟨1⟩, ⟨"polls", .total (.clamp 1)⟩)])) := by
    rfl
  have hran : Ran start past refused.2 := by
    refine .cons _ (.cons _ (.cons _ (.cons _ (.cons _ .nil ?_) ?_) ?_) ?_) ?_
    · intro x hx
      cases hx
    · intro x hx
      rw [List.mem_singleton.1 hx]
      exact .inr ⟨_, List.mem_cons_self, List.mem_singleton.2 rfl⟩
    · intro x hx
      cases hx
    · intro x hx
      rw [List.mem_singleton.1 hx]
      refine .inr ⟨_, List.mem_cons_self, ?_⟩
      rw [hasked]
      exact List.mem_singleton.2 rfl
    · intro x hx
      cases hx
  exact ⟨hstart, hran, hran.shares hstart, rfl, hasked, by rfl, by rfl⟩

end Ran

end Session

end MetricRelay
