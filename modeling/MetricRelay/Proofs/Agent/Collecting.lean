import MetricRelay.Agent.Collector
import MetricRelay.Proofs.Agent.Delivery

/-!
# Counting polls

The collector of an agent owns one counter among many gauges.  Each time the gauges are
refreshed the counter goes up by one, whatever the machine shows, as long as the figures
of the process are numbers.  Cells for processors that turn up later are added, and no
cell is ever given up.

Main definitions:

- `Machine.HasFigures`: the figures of the process are finite, if there are any.
- `Heap.Grows`: cells stay where they are and keep their keys, and others are added.
- `Collector.Counts`: a collector with a counter of its updates.

Main results:

- `Provider.setAll_eq_of_ok` and the like: updates of several cells.
- `Collector.counts_standard`: the collector of an agent at its start.
- `Collector.Counts.updateAll`: what one update of all providers does.
-/

namespace MetricRelay

/-! ## Cells that are added -/

namespace Heap

/-- The cells that there were are still there, each under its key. -/
structure Grows (heap heap' : Heap) : Prop where
  size : heap.size ≤ heap'.size
  key : ∀ x : Handle, x.index < heap.size → (heap'.get x).key = (heap.get x).key

theorem Grows.refl (heap : Heap) : heap.Grows heap := ⟨Nat.le_refl _, fun _ _ => rfl⟩

theorem Grows.trans {heap heap' heap'' : Heap} (h : heap.Grows heap') (h' : heap'.Grows heap'') :
    heap.Grows heap'' :=
  ⟨Nat.le_trans h.size h'.size, fun x hx =>
    (h'.key x (Nat.lt_of_lt_of_le hx h.size)).trans (h.key x hx)⟩

/-- A cell that was there keeps its kind. -/
theorem Grows.kind_eq {heap heap' : Heap} (h : heap.Grows heap') {x : Handle}
    (hx : x.index < heap.size) : (heap'.get x).kind = (heap.get x).kind :=
  congrArg Key.kind (h.key x hx)

/-- Fresh cells leave the others where they are. -/
theorem grows_allocAll (heap : Heap) (ms : List Metric) : heap.Grows (heap.allocAll ms).2 := by
  refine ⟨?_, fun x hx => by rw [get_allocAll_of_lt hx ms]⟩
  show heap.cells.length ≤ (heap.cells ++ ms).length
  rw [List.length_append]
  exact Nat.le_add_right _ _

/-- A fresh cell shows one of the metrics that the cells were made for. -/
theorem get_mem_of_mem_allocAll {heap : Heap} {ms : List Metric} {x : Handle}
    (hx : x ∈ (heap.allocAll ms).1) : (heap.allocAll ms).2.get x ∈ ms := by
  have hmem : (heap.allocAll ms).2.get x ∈ (heap.allocAll ms).1.map (heap.allocAll ms).2.get :=
    List.mem_map_of_mem hx
  rwa [(heap.shows_allocAll ms).map_get] at hmem

/-- The handles of fresh cells come after all others. -/
theorem size_le_of_mem_allocAll {heap : Heap} {ms : List Metric} {x : Handle}
    (hx : x ∈ (heap.allocAll ms).1) : heap.size ≤ x.index := by
  rcases List.mem_map.1 hx with ⟨i, -, rfl⟩
  exact Nat.le_add_right _ _

end Heap

namespace Agent

/-- Cells that keep their keys are still there. -/
theorem SameKeys.grows {heap heap' : Heap} (h : SameKeys heap heap') : heap.Grows heap' :=
  ⟨Nat.le_of_eq h.size.symm, fun x _ => h.key x⟩

/-- The figures of the process are finite, if it can be found. -/
def Machine.HasFigures (shown : Machine) : Prop :=
  ∀ figures, shown.process = some figures → ∀ x ∈ figures, x.isFinite = true

/-! ## Updates of several cells -/

namespace Provider

variable {heap : Heap} {updates later : List (Handle × Value)} {h : Handle}

/-- What every update keeps is kept, also where one of them is refused. -/
theorem setAll_keeps {P : Heap → Prop}
    (hkeep : ∀ heap, ∀ x ∈ updates, P heap → P (heap.update x.1 x.2).2) (hP : P heap) :
    P (setAll heap updates).2 := by
  induction updates generalizing heap with
  | nil => exact hP
  | cons x updates ih =>
    have hone := hkeep heap x List.mem_cons_self hP
    rw [setAll]
    rcases hupdate : heap.update x.1 x.2 with ⟨result, heap'⟩
    rw [hupdate] at hone
    cases result with
    | error e => exact hone
    | ok v => exact ih (fun heap y hy => hkeep heap y (List.mem_cons_of_mem x hy)) hone

/-- Updates change values only. -/
theorem sameKeys_setAll (heap : Heap) (updates : List (Handle × Value)) :
    SameKeys heap (setAll heap updates).2 :=
  setAll_keeps (P := SameKeys heap) (fun heap' x _ hkeys => hkeys.trans
    ⟨heap'.size_update x.1 x.2, fun h => heap'.key_get_update x.1 h x.2⟩) (.refl heap)

/-- No other cell notices. -/
theorem get_setAll (hother : h ∉ updates.map Prod.fst) :
    (setAll heap updates).2.get h = heap.get h := by
  refine setAll_keeps (P := fun heap' => heap'.get h = heap.get h) (fun heap' x hx hget => ?_) rfl
  have hne : x.1 ≠ h := fun heq => hother (heq ▸ List.mem_map_of_mem hx)
  rw [← hget, Heap.update_snd]
  cases (heap'.get x.1).update x.2 with
  | ok m => exact heap'.get_set_of_ne hne m
  | error e => rfl

/-- After updates that are taken come the next ones. -/
theorem setAll_eq_of_ok (hok : (setAll heap updates).1 = .ok ()) :
    setAll heap (updates ++ later) = setAll (setAll heap updates).2 later := by
  induction updates generalizing heap with
  | nil => rfl
  | cons x updates ih =>
    rw [List.cons_append, setAll, setAll]
    rw [setAll] at hok
    rcases hupdate : heap.update x.1 x.2 with ⟨result, heap'⟩
    rw [hupdate] at hok
    cases result with
    | error e => cases hok
    | ok v => exact ih hok

/-- A gauge takes every number. -/
theorem update_reading_of_gauge {x : Binary64} (hkind : (heap.get h).kind = .gauge)
    (hx : x.isFinite = true) : ∃ v, (heap.update h (.reading x)).1 = .ok v := by
  unfold Heap.update
  rcases hm : heap.get h with ⟨name, value⟩
  rw [hm] at hkind
  cases value with
  | total n => cases hkind
  | reading y =>
    simp [Metric.update, Value.finite, Value.isFinite, hx, bind, Except.bind, Value.merge?]

/-- Gauges take all numbers. -/
theorem setAll_readings {readings : List (Handle × Binary64)}
    (hgauges : ∀ x ∈ readings, (heap.get x.1).kind = .gauge ∧ x.2.isFinite = true) :
    (setAll heap (readings.map fun x => (x.1, .reading x.2))).1 = .ok () := by
  induction readings generalizing heap with
  | nil => rfl
  | cons x readings ih =>
    rcases hgauges x List.mem_cons_self with ⟨hkind, hfinite⟩
    rcases update_reading_of_gauge hkind hfinite with ⟨v, hv⟩
    have hkeep (h : Handle) : ((heap.update x.1 (.reading x.2)).2.get h).kind = (heap.get h).kind :=
      congrArg Key.kind (heap.key_get_update x.1 h _)
    rw [List.map_cons, setAll]
    rcases hupdate : heap.update x.1 (.reading x.2) with ⟨result, heap'⟩
    rw [hupdate] at hv hkeep
    cases hv
    refine ih fun y hy => ?_
    rw [hkeep]
    exact hgauges y (List.mem_cons_of_mem _ hy)

/-- A counter takes a count of one. -/
theorem update_one (hcounter : heap.IsCounter h) (hroom : heap.amount h + 1 ≤ Count.greatest) :
    (∃ v, (heap.update h one).1 = .ok v) ∧ (heap.update h one).2.amount h = heap.amount h + 1 := by
  rcases Value.exists_of_kind_counter hcounter.kind with ⟨n, hn⟩
  have hamount : heap.amount h = n.val := by rw [Heap.amount, hn]; rfl
  have hexact : (heap.get h).value.AddsExactly one := by
    rw [hn]
    have hleast := n.least_le
    have hone : (Count.clamp 1).val = 1 := by decide
    show (Count.clamp (n.val + (Count.clamp 1).val)).val = n.val + (Count.clamp 1).val
    rw [hone]
    exact Count.clamp_of_mem (by omega) (by omega)
  constructor
  · unfold Heap.update
    rcases hm : heap.get h with ⟨name, value⟩
    rw [hm] at hn
    cases hn
    simp [Metric.update, one, Value.finite, Value.isFinite, bind, Except.bind, Value.merge?]
  · rw [Heap.amount_update hcounter hexact, if_pos rfl]
    rfl

/-! ## One provider -/

/-- The figures of a process are numbers for its gauges. -/
theorem figures_finite {figures : List Handle} {shown : Machine} (hshown : shown.HasFigures)
    (hfigures : ∀ x ∈ figures, (heap.get x).kind = .gauge) :
    ∀ x ∈ figures.zip (shown.process.getD []),
      (heap.get x.1).kind = .gauge ∧ x.2.isFinite = true := by
  intro x hx
  rcases List.of_mem_zip hx with ⟨hcell, hvalue⟩
  refine ⟨hfigures x.1 hcell, ?_⟩
  cases hprocess : shown.process with
  | none =>
    rw [hprocess] at hvalue
    cases hvalue
  | some values =>
    rw [hprocess] at hvalue
    exact hshown values hprocess x.2 hvalue

/-- After the figures comes the counter, and then a random number. -/
theorem amount_setAll_one {poll random : Handle} {readings : List (Handle × Binary64)}
    {x : Binary64}
    (hgauges : ∀ x ∈ readings, (heap.get x.1).kind = .gauge ∧ x.2.isFinite = true)
    (hcounter : heap.IsCounter poll) (hrandom : random ≠ poll)
    (hroom : heap.amount poll + 1 ≤ Count.greatest) :
    (setAll heap ((readings.map fun x => (x.1, Value.reading x.2)) ++
      [(poll, one), (random, .reading x)])).2.amount poll = heap.amount poll + 1 := by
  let updates := readings.map fun x => (x.1, Value.reading x.2)
  let read := (setAll heap updates).2
  have hpoll : poll ∉ updates.map Prod.fst := by
    rw [List.map_map]
    intro hmem
    rcases List.mem_map.1 hmem with ⟨x, hx, rfl⟩
    cases (hgauges x hx).1.symm.trans hcounter.kind
  have hamount : read.amount poll = heap.amount poll := congrArg (·.value.amount) (get_setAll hpoll)
  have hkeys : SameKeys heap read := sameKeys_setAll heap updates
  have hcounter' : read.IsCounter poll := hcounter.congr hkeys.size (hkeys.key poll)
  have hlast : poll ∉ [(random, Value.reading x)].map Prod.fst := by
    rw [List.map_singleton, List.mem_singleton]
    exact fun heq => hrandom heq.symm
  rcases update_one hcounter' (by omega) with ⟨⟨v, hone⟩, htotal⟩
  rw [setAll_eq_of_ok (setAll_readings hgauges)]
  show (setAll read [(poll, one), (random, .reading x)]).2.amount poll = _
  rw [setAll]
  rcases hupdate : read.update poll one with ⟨result, counted⟩
  rw [hupdate] at hone htotal
  cases hone
  show ((setAll counted [(random, .reading x)]).2.get poll).value.amount = _
  rw [get_setAll hlast]
  show counted.amount poll = _
  rw [htotal, hamount]

/-- The counter of a process goes up by one. -/
theorem update_process {figures : List Handle} {poll random : Handle} {shown : Machine}
    (hshown : shown.HasFigures) (hfigures : ∀ x ∈ figures, (heap.get x).kind = .gauge)
    (hcounter : heap.IsCounter poll) (hrandom : random ≠ poll)
    (hroom : heap.amount poll + 1 ≤ Count.greatest) :
    let updated := (process figures poll random).update shown heap
    updated.2.1 = process figures poll random ∧ SameKeys heap updated.2.2 ∧
      updated.2.2.amount poll = heap.amount poll + 1 := by
  refine ⟨rfl, sameKeys_setAll heap _, ?_⟩
  have hreadings : figures.zip ((shown.process.getD []).map .reading) =
      (figures.zip (shown.process.getD [])).map fun x => (x.1, Value.reading x.2) :=
    List.zip_map_right ..
  show (setAll heap (figures.zip ((shown.process.getD []).map .reading) ++
    [(poll, one), (random, .reading shown.random)])).2.amount poll = _
  rw [hreadings]
  exact amount_setAll_one (figures_finite hshown hfigures) hcounter hrandom hroom

/-- Processors that turned up get fresh gauges, and no other cell notices. -/
theorem setAll_processors (heap : Heap) (processors : List Handle) (news : List Nat)
    (values : List Value) :
    let made := heap.allocAll (news.map processorGauge)
    let updated := (setAll made.2 ((processors ++ made.1).zip values)).2
    heap.Grows updated ∧
      (∀ x ∈ made.1, heap.size ≤ x.index ∧ x.index < updated.size ∧
        (updated.get x).kind = .gauge) ∧
      ∀ x : Handle, x.index < heap.size → x ∉ processors → updated.get x = heap.get x := by
  intro made updated
  have hkeys : SameKeys made.2 updated := sameKeys_setAll made.2 _
  refine ⟨(heap.grows_allocAll _).trans hkeys.grows, fun x hx => ⟨?_, ?_, ?_⟩,
    fun x hx hother => ?_⟩
  · exact Heap.size_le_of_mem_allocAll hx
  · rw [hkeys.size]
    exact Heap.index_lt_of_mem_allocAll hx
  · have hkind : (updated.get x).kind = (made.2.get x).kind := congrArg Key.kind (hkeys.key x)
    rcases List.mem_map.1 (Heap.get_mem_of_mem_allocAll hx) with ⟨n, -, hgauge⟩
    rw [hkind]
    show (((heap.allocAll (news.map processorGauge)).2).get x).kind = .gauge
    rw [← hgauge]
    rfl
  · have hcell : x ∉ ((processors ++ made.1).zip values).map Prod.fst := by
      intro hmem
      rcases List.mem_map.1 hmem with ⟨y, hy, rfl⟩
      rcases List.mem_append.1 (List.of_mem_zip hy).1 with hold | hfresh
      · exact hother hold
      · exact absurd hx (Nat.not_lt.2 (Heap.size_le_of_mem_allocAll hfresh))
    exact (get_setAll hcell).trans (Heap.get_allocAll_of_lt hx _)

/-- What a machine shows is seen in its cells only, and in fresh gauges. -/
theorem update_machine (shown : Machine) (total free : Handle) (processors : List Handle)
    (heap : Heap) :
    let updated := (machine total free processors).update shown heap
    ∃ fresh, updated.2.1 = machine total free (processors ++ fresh) ∧ heap.Grows updated.2.2 ∧
      fresh.Nodup ∧
      (∀ x ∈ fresh, heap.size ≤ x.index ∧ x.index < updated.2.2.size ∧
        (updated.2.2.get x).kind = .gauge) ∧
      ∀ x : Handle, x.index < heap.size → x ∉ (machine total free processors).handles →
        updated.2.2.get x = heap.get x := by
  let memory := [(total, Value.reading shown.totalMemory), (free, Value.reading shown.freeMemory)]
  have hkeys := sameKeys_setAll heap memory
  have hget {x : Handle} (hx : x ∉ (machine total free processors).handles) :
      (setAll heap memory).2.get x = heap.get x :=
    get_setAll fun hmem => hx (List.mem_append_left _ hmem)
  unfold update
  simp only
  rcases hset : setAll heap memory with ⟨result, heap'⟩
  rw [hset] at hkeys hget
  cases result with
  | error e =>
    exact ⟨[], congrArg _ (List.append_nil _).symm, hkeys.grows, List.nodup_nil,
      fun x hx => absurd hx List.not_mem_nil, fun x _ hx => hget hx⟩
  | ok u =>
    rcases setAll_processors heap' processors
      ((List.range shown.processors.length).drop processors.length)
      (shown.processors.map .reading) with ⟨hgrows, hfresh, hothers⟩
    refine ⟨_, rfl, hkeys.grows.trans hgrows, heap'.nodup_allocAll _, fun x hx => ?_,
      fun x hx hother => ?_⟩
    · rcases hfresh x hx with ⟨hold, hvalid, hkind⟩
      exact ⟨hkeys.size ▸ hold, hvalid, hkind⟩
    · have hprocessor : x ∉ processors := fun hmem => hother (List.mem_append_right _ hmem)
      exact (hothers x (hkeys.size ▸ hx) hprocessor).trans (hget hother)

end Provider

/-! ## The collector of an agent -/

namespace Collector

/-- The name of the counter of updates. -/
def pollName : String := "PollCount"

/-- A collector of the figures of a process and of its machine, with a counter of its
updates.  All cells are its own, and the others are gauges. -/
structure Counts (c : Collector) (heap : Heap) (poll : Handle) : Prop where
  providers : ∃ figures random total free processors, c.providers =
    [.process figures poll random, .machine total free processors]
  valid : ∀ x ∈ c.handles, x.index < heap.size
  nodup : c.handles.Nodup
  key : (heap.get poll).key = ⟨.counter, pollName⟩
  gauges : ∀ x ∈ c.handles, x ≠ poll → (heap.get x).kind = .gauge

section

variable {c : Collector} {heap heap' : Heap} {poll : Handle}

/-- The counter of polls is one of the cells that are pushed. -/
theorem Counts.mem (h : c.Counts heap poll) : poll ∈ c.handles := by
  rcases h.providers with ⟨figures, random, total, free, processors, hproviders⟩
  simp [handles, hproviders, Provider.handles]

/-- The counter of polls has a cell, which is a counter. -/
theorem Counts.isCounter (h : c.Counts heap poll) : heap.IsCounter poll :=
  ⟨h.valid poll h.mem, congrArg Key.kind h.key⟩

/-- Cells may be added, and what they show may change. -/
theorem Counts.of_grows (h : c.Counts heap poll) (hgrows : heap.Grows heap') :
    c.Counts heap' poll := by
  refine ⟨h.providers, fun x hx => Nat.lt_of_lt_of_le (h.valid x hx) hgrows.size, h.nodup,
    (hgrows.key poll (h.valid poll h.mem)).trans h.key, fun x hx hne => ?_⟩
  rw [hgrows.kind_eq (h.valid x hx)]
  exact h.gauges x hx hne

end

/-- The cells that a process and a machine start with. -/
def standardCells : List Metric :=
  Provider.figureNames.map Provider.gauge ++
    [⟨pollName, .total .zero⟩, Provider.gauge "RandomValue", Provider.gauge "TotalMemory",
      Provider.gauge "FreeMemory"]

/-- The providers of an agent at its start, whose cells were made one after the other. -/
theorem standard_eq (heap : Heap) :
    ∃ figures random total free, (standard heap).1.providers =
        [.process figures ⟨heap.size + 6⟩ random, .machine total free []] ∧
      (standard heap).1.handles = (heap.allocAll standardCells).1 ∧
      (standard heap).2 = (heap.allocAll standardCells).2 := by
  refine ⟨(heap.allocAll (Provider.figureNames.map Provider.gauge)).1, ⟨heap.size + 7⟩,
    ⟨heap.size + 8⟩, ⟨heap.size + 9⟩, ?_, ?_, ?_⟩
  · simp [standard, Provider.makeProcess, Provider.makeMachine, Heap.alloc, Heap.allocAll,
      Heap.next, Heap.size, Provider.figureNames]
  · simp [standard, Provider.makeProcess, Provider.makeMachine, Heap.alloc, Heap.allocAll,
      Heap.next, Heap.size, Provider.figureNames, handles, Provider.handles, standardCells,
      List.range_succ]
  · simp [standard, Provider.makeProcess, Provider.makeMachine, Heap.alloc, Heap.allocAll,
      Provider.figureNames, standardCells, pollName]

/-- At its start an agent has counted nothing. -/
theorem counts_standard (heap : Heap) :
    ∃ poll, (standard heap).1.Counts (standard heap).2 poll ∧
      (standard heap).2.amount poll = 0 := by
  rcases standard_eq heap with ⟨figures, random, total, free, hproviders, hhandles, hheap⟩
  have hget (i : Nat) (hi : i < standardCells.length) :
      (standard heap).2.get ⟨heap.size + i⟩ = standardCells[i] := by
    rw [hheap]
    refine Heap.get_eq_of_get? ?_
    show (heap.cells ++ standardCells)[heap.cells.length + i]? = some standardCells[i]
    rw [List.getElem?_append_right (Nat.le_add_right _ _), Nat.add_sub_cancel_left]
    exact List.getElem?_eq_getElem hi
  have hpoll : (standard heap).2.get ⟨heap.size + 6⟩ = ⟨pollName, .total .zero⟩ :=
    hget 6 (by decide)
  refine ⟨⟨heap.size + 6⟩, ⟨⟨_, _, _, _, _, hproviders⟩, fun x hx => ?_, ?_, ?_,
    fun x hx hne => ?_⟩, ?_⟩
  · rw [hhandles] at hx
    rw [hheap]
    exact Heap.index_lt_of_mem_allocAll hx
  · rw [hhandles]
    exact heap.nodup_allocAll _
  · rw [hpoll]
    rfl
  · rw [hhandles] at hx
    rcases List.mem_map.1 hx with ⟨i, hi, rfl⟩
    have hgauge : ∀ i (hi : i < standardCells.length), i ≠ 6 →
        (standardCells[i]).kind = .gauge := by decide
    rw [hget i (List.mem_range.1 hi)]
    exact hgauge i _ fun heq => hne (heq ▸ rfl)
  · rw [Heap.amount, hpoll]
    rfl

/-! ### One update -/

section

variable {c : Collector} {heap : Heap} {poll : Handle} {shown : Machine}

/-- Fresh gauges for processors are taken over by the collector. -/
theorem Counts.addProcessors {figures processors fresh : List Handle} {random total free : Handle}
    {heap' : Heap} (h : Counts ⟨[.process figures poll random, .machine total free processors]⟩
      heap poll)
    (hgrows : heap.Grows heap') (hnodup : fresh.Nodup)
    (hfresh : ∀ x ∈ fresh, heap.size ≤ x.index ∧ x.index < heap'.size ∧
      (heap'.get x).kind = .gauge) :
    Counts ⟨[.process figures poll random, .machine total free (processors ++ fresh)]⟩ heap' poll ∧
      handles ⟨[.process figures poll random, .machine total free (processors ++ fresh)]⟩ =
        handles ⟨[.process figures poll random, .machine total free processors]⟩ ++ fresh := by
  have hhandles :
      handles ⟨[.process figures poll random, .machine total free (processors ++ fresh)]⟩ =
        handles ⟨[.process figures poll random, .machine total free processors]⟩ ++ fresh := by
    simp [handles, Provider.handles]
  have hold := h.of_grows hgrows
  refine ⟨⟨⟨_, _, _, _, _, rfl⟩, ?_, ?_, hold.key, ?_⟩, hhandles⟩
  · rw [hhandles]
    intro x hx
    rcases List.mem_append.1 hx with hx | hx
    · exact hold.valid x hx
    · exact (hfresh x hx).2.1
  · rw [hhandles]
    refine h.nodup.append hnodup fun x hx hx' => ?_
    exact absurd (h.valid x hx) (Nat.not_lt.2 (hfresh x hx').1)
  · rw [hhandles]
    intro x hx hne
    rcases List.mem_append.1 hx with hx | hx
    · exact hold.gauges x hx hne
    · exact (hfresh x hx).2.2

/-- One update counts itself, and adds cells at most. -/
theorem Counts.updateAll (h : c.Counts heap poll) (hshown : shown.HasFigures)
    (hroom : heap.amount poll + 1 ≤ Count.greatest) :
    let updated := c.updateAll shown heap
    updated.1.Counts updated.2 poll ∧ updated.2.amount poll = heap.amount poll + 1 ∧
      heap.Grows updated.2 ∧ c.handles ⊆ updated.1.handles := by
  rcases c with ⟨providers⟩
  rcases h.providers with ⟨figures, random, total, free, processors, rfl⟩
  have hnodup : (figures ++ poll :: random :: total :: free :: processors).Nodup := by
    simpa [handles, Provider.handles] using h.nodup
  rw [List.nodup_append'] at hnodup
  rcases hnodup with ⟨-, hrest, hapart⟩
  have hothers : poll ∉ random :: total :: free :: processors := (List.nodup_cons.1 hrest).1
  have hfigures : ∀ x ∈ figures, (heap.get x).kind = .gauge := by
    intro x hx
    refine h.gauges x (List.mem_append_left _ (List.mem_append_left _ hx)) ?_
    rintro rfl
    exact hapart hx List.mem_cons_self
  have hrandom : random ≠ poll := fun heq => hothers (heq ▸ List.mem_cons_self)
  have hmachine : poll ∉ (Provider.machine total free processors).handles := fun hmem =>
    hothers (List.mem_cons_of_mem _ hmem)
  rcases Provider.update_process hshown hfigures h.isCounter hrandom hroom with
    ⟨-, hkeys, hamount⟩
  let counted := ((Provider.process figures poll random).update shown heap).2.2
  rcases Provider.update_machine shown total free processors counted with
    ⟨fresh, hupdated, hgrows, hfreshNodup, hfresh, hget⟩
  have hcounted : Counts ⟨[.process figures poll random, .machine total free processors]⟩ counted
      poll := h.of_grows hkeys.grows
  rcases hcounted.addProcessors hgrows hfreshNodup hfresh with ⟨hcounts, hhandles⟩
  have hcollector : updateAll shown ⟨[.process figures poll random, .machine total free processors]⟩
      heap = (⟨[.process figures poll random, .machine total free (processors ++ fresh)]⟩,
        ((Provider.machine total free processors).update shown counted).2.2) := by
    rw [← hupdated]
    rfl
  rw [hcollector]
  refine ⟨hcounts, ?_, hkeys.grows.trans hgrows, ?_⟩
  · rw [← hamount]
    exact congrArg (·.value.amount) (hget poll hcounted.isCounter.valid hmachine)
  · rw [hhandles]
    exact List.subset_append_left _ _

end

end Collector

end Agent

end MetricRelay
