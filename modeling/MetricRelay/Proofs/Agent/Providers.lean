import MetricRelay.Proofs.Agent.Collecting
import MetricRelay.Proofs.Agent.Registry

/-!
# The providers of an agent

A process, a machine and a single metric are providers that stay in their cells.  An
update sets them one after the other, up to the first that refuses, and a machine makes
cells for processors that turn up.  So none of these providers is concerned by what else
an agent collects.

Main definitions:

- `Provider.kind`: the providers of an agent, as a kind of provider.
- `Provider.Like`: providers that differ in nothing but their cells.
- `Collector.registry`: a collector, as a registry.

Main results:

- `Provider.sameCells_setAll`: updates of cells that cannot be told apart.
- `Provider.keepsTo`: each provider of an agent stays in its cells.
- `Collector.independent`: providers that stay in their cells are independent, and those of
  a collector do.
-/

namespace MetricRelay

/-! ## Cells -/

namespace Heap

variable {heap heap' : Heap} {hs hs' : List Handle} {x : Handle × Handle}

/-- Handles in the same place keep showing the same with one update through both. -/
theorem SameCells.update (h : heap.SameCells heap' hs hs') (hhas : heap.Has hs)
    (hhas' : heap'.Has hs') (hx : x ∈ hs.zip hs') (u : Value) :
    (heap.update x.1 u).1 = (heap'.update x.2 u).1 ∧
      (heap.update x.1 u).2.SameCells (heap'.update x.2 u).2 hs hs' := by
  refine ⟨?_, h.change hhas hhas' hx (.update u)⟩
  unfold Heap.update
  rw [h.get_eq x hx]
  cases (heap'.get x.2).update u with
  | ok m => rfl
  | error e => rfl

/-- To make cells does nothing to others. -/
theorem confined_allocAll (h : heap.Has hs) (ms : List Metric) :
    heap.Confined hs (heap.allocAll ms).2 (hs ++ (heap.allocAll ms).1) where
  size := (heap.grows_allocAll ms).size
  has := (h.mono (heap.grows_allocAll ms).size).append fun _ hx => index_lt_of_mem_allocAll hx
  added _ hx := (List.mem_append.1 hx).imp_right size_le_of_mem_allocAll
  others _ hx _ := get_allocAll_of_lt hx ms

/-- A handle of a cell that there was is not one of a fresh cell. -/
theorem ne_fresh {h : Handle} (hlt : h.index < heap.size) (i : Nat) : h ≠ ⟨heap.size + i⟩ := by
  rintro rfl
  exact Nat.not_lt.2 (Nat.le_add_right heap.size i) hlt

/-- Where the same metrics are added to two heaps, handles in the same place are older ones
or those of the same metric. -/
theorem mem_zip_allocAll (hlength : hs.length = hs'.length) {ms : List Metric}
    (hx : x ∈ (hs ++ (heap.allocAll ms).1).zip (hs' ++ (heap'.allocAll ms).1)) :
    x ∈ hs.zip hs' ∨ ∃ i < ms.length, x = (⟨heap.size + i⟩, ⟨heap'.size + i⟩) := by
  have hfresh : (heap.allocAll ms).1.zip (heap'.allocAll ms).1 =
      (List.range ms.length).map fun i => (⟨heap.size + i⟩, ⟨heap'.size + i⟩) := List.zip_map'
  rw [List.zip_append hlength, hfresh] at hx
  refine (List.mem_append.1 hx).imp_right fun hmem => ?_
  rcases List.mem_map.1 hmem with ⟨i, hi, rfl⟩
  exact ⟨i, List.mem_range.1 hi, rfl⟩

/-- The same metrics in fresh cells of both heaps have handles in the same places. -/
theorem SameCells.allocAll (h : heap.SameCells heap' hs hs') (hhas : heap.Has hs)
    (hhas' : heap'.Has hs') (ms : List Metric) :
    (heap.allocAll ms).2.SameCells (heap'.allocAll ms).2 (hs ++ (heap.allocAll ms).1)
      (hs' ++ (heap'.allocAll ms).1) := by
  have hold : ∀ x ∈ hs.zip hs', x.1.index < heap.size ∧ x.2.index < heap'.size := fun x hx =>
    ⟨hhas _ (List.of_mem_zip hx).1, hhas' _ (List.of_mem_zip hx).2⟩
  refine ⟨by simp [h.length, Heap.allocAll], fun x hx => ?_, fun x hx y hy => ?_⟩
  · rcases mem_zip_allocAll h.length hx with hx | ⟨i, -, rfl⟩
    · rw [get_allocAll_of_lt (hold x hx).1, get_allocAll_of_lt (hold x hx).2]
      exact h.get_eq x hx
    · rw [Heap.get, Heap.get, get?_allocAll_fresh, get?_allocAll_fresh]
  · -- A fresh handle is none of the older ones, in neither heap.
    rcases mem_zip_allocAll h.length hx with hx | ⟨i, -, rfl⟩ <;>
      rcases mem_zip_allocAll h.length hy with hy | ⟨j, -, rfl⟩
    · exact h.eq_iff x hx y hy
    · exact iff_of_false (ne_fresh (hold x hx).1 j) (ne_fresh (hold x hx).2 j)
    · exact iff_of_false (ne_fresh (hold y hy).1 i).symm (ne_fresh (hold y hy).2 i).symm
    · simp only [Handle.mk.injEq, Nat.add_left_cancel_iff]

end Heap

namespace Agent

open Heap (Confined SameCells)

namespace Provider

/-! ## Updates of several cells -/

section

variable {heap heap' : Heap} {hs hs' : List Handle}

/-- Updates of cells of an owner do nothing to other cells. -/
theorem confined_setAll (updates : List (Handle × Value)) (h : heap.Has hs)
    (hupdates : ∀ u ∈ updates, u.1 ∈ hs) : heap.Confined hs (setAll heap updates).2 hs := by
  have hsize := (sameKeys_setAll heap updates).size
  refine ⟨Nat.le_of_eq hsize.symm, h.mono (Nat.le_of_eq hsize.symm), fun _ hx => .inl hx,
    fun x _ hother => get_setAll fun hmem => ?_⟩
  rcases List.mem_map.1 hmem with ⟨u, hu, rfl⟩
  exact hother (hupdates u hu)

/-- Updates of cells that cannot be told apart are taken or refused alike, and the cells
cannot be told apart after them. -/
theorem sameCells_setAll (updates : List ((Handle × Handle) × Value))
    (h : heap.SameCells heap' hs hs') (hhas : heap.Has hs) (hhas' : heap'.Has hs')
    (hupdates : ∀ u ∈ updates, u.1 ∈ hs.zip hs') :
    (setAll heap (updates.map (Prod.map Prod.fst id))).1 =
        (setAll heap' (updates.map (Prod.map Prod.snd id))).1 ∧
      (setAll heap (updates.map (Prod.map Prod.fst id))).2.SameCells
        (setAll heap' (updates.map (Prod.map Prod.snd id))).2 hs hs' := by
  induction updates generalizing heap heap' with
  | nil => exact ⟨rfl, h⟩
  | cons u updates ih =>
    have hu := hupdates u List.mem_cons_self
    have hrest : ∀ v ∈ updates, v.1 ∈ hs.zip hs' := fun v hv =>
      hupdates v (List.mem_cons_of_mem u hv)
    rcases h.update hhas hhas' hu u.2 with ⟨hresult, hsame⟩
    have hhas₁ := hhas.change u.1.1 (.update u.2)
    have hhas₁' := hhas'.change u.1.2 (.update u.2)
    simp only [Heap.change] at hhas₁ hhas₁'
    simp only [List.map_cons, setAll, Prod.map_fst, Prod.map_snd, id]
    generalize heap.update u.1.1 u.2 = updated at hresult hsame hhas₁ ⊢
    generalize heap'.update u.1.2 u.2 = updated' at hresult hsame hhas₁' ⊢
    rcases updated with ⟨result, heap₁⟩
    rcases updated' with ⟨result', heap₁'⟩
    cases hresult
    cases result with
    | ok v => exact ih hsame hhas₁ hhas₁' hrest
    | error e => exact ⟨rfl, hsame⟩

/-- Two lists of handles in the same places are the sides of one list of pairs; this is the
left one, with values. -/
theorem zip_eq_left (hlength : hs.length = hs'.length) (values : List Value) :
    hs.zip values = ((hs.zip hs').zip values).map (Prod.map Prod.fst id) := by
  rw [← List.zip_map_left, List.map_fst_zip (Nat.le_of_eq hlength)]

/-- The handles on the right of such a list of pairs, with values. -/
theorem zip_eq_right (hlength : hs.length = hs'.length) (values : List Value) :
    hs'.zip values = ((hs.zip hs').zip values).map (Prod.map Prod.snd id) := by
  rw [← List.zip_map_left, List.map_snd_zip (Nat.le_of_eq hlength.symm)]

end

/-! ## Each provider -/

/-- The providers of an agent. -/
def kind : ProviderKind Provider := ⟨update, handles⟩

/-- Two providers differ in nothing but their cells. -/
def Like : Provider → Provider → Prop
  | process figures _ _, process figures' _ _ => figures.length = figures'.length
  | machine _ _ processors, machine _ _ processors' => processors.length = processors'.length
  | single _ calls step, single _ calls' step' => calls = calls' ∧ step = step'
  | _, _ => False

section

variable {heap heap' : Heap} (shown : Machine)

/-- The updates of a process are those of its figures, of its count and of its random number. -/
theorem mem_cells_of_mem_updates {α : Type} {figures : List α} {values : List Value}
    {pollCount random : α} {v w : Value} {u : α × Value}
    (hu : u ∈ figures.zip values ++ [(pollCount, v), (random, w)]) :
    u.1 ∈ figures ++ [pollCount, random] := by
  rcases List.mem_append.1 hu with hfigure | hlast
  · exact List.mem_append_left _ (List.of_mem_zip hfigure).1
  · refine List.mem_append_right _ ?_
    rcases List.mem_pair.1 hlast with rfl | rfl
    · exact List.mem_cons_self
    · exact List.mem_cons_of_mem _ List.mem_cons_self

/-- A process sets its own cells only. -/
theorem confined_process {figures : List Handle} {pollCount random : Handle}
    (h : heap.Has (figures ++ [pollCount, random])) :
    heap.Confined (figures ++ [pollCount, random])
      ((process figures pollCount random).update shown heap).2.2
      (figures ++ [pollCount, random]) :=
  confined_setAll _ h fun _ hu => mem_cells_of_mem_updates hu

/-- Two processes set the same, as their updates come from what the machine shows. -/
theorem alike_process {figures figures' : List Handle}
    {pollCount pollCount' random random' : Handle} (hlength : figures.length = figures'.length)
    (hhas : heap.Has (figures ++ [pollCount, random]))
    (hhas' : heap'.Has (figures' ++ [pollCount', random']))
    (h : heap.SameCells heap' (figures ++ [pollCount, random])
      (figures' ++ [pollCount', random'])) :
    let updated := ((process figures pollCount random).update shown heap).2
    let updated' := ((process figures' pollCount' random').update shown heap').2
    updated.1.Like updated'.1 ∧
      updated.2.SameCells updated'.2 updated.1.handles updated'.1.handles := by
  let values := (shown.process.getD []).map Value.reading
  let updates := (figures.zip figures').zip values ++
    [((pollCount, pollCount'), one), ((random, random'), .reading shown.random)]
  have hleft : figures.zip values ++ [(pollCount, one), (random, .reading shown.random)] =
      updates.map (Prod.map Prod.fst id) := by
    rw [List.map_append, ← zip_eq_left hlength]
    rfl
  have hright : figures'.zip values ++ [(pollCount', one), (random', .reading shown.random)] =
      updates.map (Prod.map Prod.snd id) := by
    rw [List.map_append, ← zip_eq_right hlength]
    rfl
  have hupdates : ∀ u ∈ updates, u.1 ∈
      (figures ++ [pollCount, random]).zip (figures' ++ [pollCount', random']) := by
    intro u hu
    rw [List.zip_append hlength]
    exact mem_cells_of_mem_updates hu
  refine ⟨hlength, ?_⟩
  show (setAll heap (figures.zip values ++ _)).2.SameCells
    (setAll heap' (figures'.zip values ++ _)).2 _ _
  rw [hleft, hright]
  exact (sameCells_setAll updates h hhas hhas' hupdates).2

/-- The processors of a machine with gauges for those that turned up, and the cells after
all of them are set. -/
def setProcessors (shown : Machine) (processors : List Handle) (heap : Heap) : List Handle × Heap :=
  let made := heap.allocAll
    (((List.range shown.processors.length).drop processors.length).map processorGauge)
  (processors ++ made.1,
    (setAll made.2 ((processors ++ made.1).zip (shown.processors.map .reading))).2)

/-- The memory of a machine is set first, and if its cells take that, its processors. -/
theorem update_machine_eq (shown : Machine) (total free : Handle) (processors : List Handle)
    (heap : Heap) :
    let set := setAll heap
      [(total, .reading shown.totalMemory), (free, .reading shown.freeMemory)]
    ((machine total free processors).update shown heap).2 =
      match set.1 with
      | .error _ => (machine total free processors, set.2)
      | .ok () => (machine total free (setProcessors shown processors set.2).1,
          (setProcessors shown processors set.2).2) := by
  intro set
  unfold update
  simp only
  rcases hset : setAll heap
    [(total, .reading shown.totalMemory), (free, .reading shown.freeMemory)] with ⟨result, heap₁⟩
  simp only [set, hset]
  cases result with
  | error e => rfl
  | ok u => rfl

/-- The cells of processors are set, some of them fresh ones, and no others. -/
theorem confined_setProcessors {hs processors : List Handle} (h : heap.Has (hs ++ processors)) :
    heap.Confined (hs ++ processors) (setProcessors shown processors heap).2
      (hs ++ (setProcessors shown processors heap).1) := by
  have hmade := Heap.confined_allocAll h
    (((List.range shown.processors.length).drop processors.length).map processorGauge)
  rw [List.append_assoc] at hmade
  exact hmade.trans (confined_setAll _ hmade.has fun u hu =>
    List.mem_append_right _ (List.of_mem_zip hu).1)

/-- As many cells are made on both heaps, and they are set to the same. -/
theorem sameCells_setProcessors {hs hs' processors processors' : List Handle}
    (hhead : hs.length = hs'.length) (hlength : processors.length = processors'.length)
    (hhas : heap.Has (hs ++ processors)) (hhas' : heap'.Has (hs' ++ processors'))
    (h : heap.SameCells heap' (hs ++ processors) (hs' ++ processors')) :
    (setProcessors shown processors heap).1.length =
        (setProcessors shown processors' heap').1.length ∧
      (setProcessors shown processors heap).2.SameCells (setProcessors shown processors' heap').2
        (hs ++ (setProcessors shown processors heap).1)
        (hs' ++ (setProcessors shown processors' heap').1) := by
  unfold setProcessors
  rw [← hlength]
  let news := ((List.range shown.processors.length).drop processors.length).map processorGauge
  let values := shown.processors.map Value.reading
  have hmade := Heap.confined_allocAll hhas news
  have hmade' := Heap.confined_allocAll hhas' news
  have hsame := h.allocAll hhas hhas' news
  rw [List.append_assoc] at hmade hmade'
  rw [List.append_assoc, List.append_assoc] at hsame
  have hall : (processors ++ (heap.allocAll news).1).length =
      (processors' ++ (heap'.allocAll news).1).length := by
    simp [Heap.allocAll, hlength]
  refine ⟨hall, ?_⟩
  show (setAll (heap.allocAll news).2 ((processors ++ (heap.allocAll news).1).zip values)).2.SameCells
    (setAll (heap'.allocAll news).2 ((processors' ++ (heap'.allocAll news).1).zip values)).2 _ _
  rw [zip_eq_left hall, zip_eq_right hall]
  refine (sameCells_setAll _ hsame hmade.has hmade'.has fun u hu => ?_).2
  rw [List.zip_append hhead]
  exact List.mem_append_right _ (List.of_mem_zip hu).1

/-- A machine sets its own cells only, whether or not its memory is taken. -/
theorem confined_machine {total free : Handle} {processors : List Handle}
    (h : heap.Has ([total, free] ++ processors)) :
    heap.Confined ([total, free] ++ processors)
      ((machine total free processors).update shown heap).2.2
      ((machine total free processors).update shown heap).2.1.handles := by
  have hset := confined_setAll [(total, .reading shown.totalMemory),
    (free, .reading shown.freeMemory)] h (by simp)
  rw [update_machine_eq]
  generalize setAll heap
    [(total, .reading shown.totalMemory), (free, .reading shown.freeMemory)] = set at hset ⊢
  rcases set with ⟨result, heap₁⟩
  cases result with
  | error e => exact hset
  | ok u => exact hset.trans (confined_setProcessors shown hset.has)

/-- Whether its memory is taken depends on what the machine shows and on its own cells, so
two machines go on alike. -/
theorem alike_machine {total free total' free' : Handle} {processors processors' : List Handle}
    (hlength : processors.length = processors'.length)
    (hhas : heap.Has ([total, free] ++ processors))
    (hhas' : heap'.Has ([total', free'] ++ processors'))
    (h : heap.SameCells heap' ([total, free] ++ processors) ([total', free'] ++ processors')) :
    let updated := ((machine total free processors).update shown heap).2
    let updated' := ((machine total' free' processors').update shown heap').2
    updated.1.Like updated'.1 ∧
      updated.2.SameCells updated'.2 updated.1.handles updated'.1.handles := by
  have hconfined := confined_setAll [(total, .reading shown.totalMemory),
    (free, .reading shown.freeMemory)] hhas (by simp)
  have hconfined' := confined_setAll [(total', .reading shown.totalMemory),
    (free', .reading shown.freeMemory)] hhas' (by simp)
  rcases sameCells_setAll [((total, total'), .reading shown.totalMemory),
    ((free, free'), .reading shown.freeMemory)] h hhas hhas' (by simp) with ⟨hresult, hset⟩
  simp only [List.map_cons, List.map_nil, Prod.map_apply, id] at hresult hset
  simp only [update_machine_eq]
  generalize setAll heap [(total, .reading shown.totalMemory),
    (free, .reading shown.freeMemory)] = set at hconfined hresult hset ⊢
  generalize setAll heap' [(total', .reading shown.totalMemory),
    (free', .reading shown.freeMemory)] = set' at hconfined' hresult hset ⊢
  rcases set with ⟨result, heap₁⟩
  rcases set' with ⟨result', heap₁'⟩
  cases hresult
  cases result with
  | error e => exact ⟨hlength, hset⟩
  | ok u => exact sameCells_setProcessors shown rfl hlength hconfined.has hconfined'.has hset

/-- The cell of a single metric is set if there is a value. -/
theorem update_single_eq (shown : Machine) (cell : Handle) (calls : Nat) (step : Nat → Option Value)
    (heap : Heap) :
    ((single cell calls step).update shown heap).2 =
      (single cell (calls + 1) step,
        (setAll heap ((step calls).toList.map fun v => (cell, v))).2) := by
  unfold update
  simp only
  cases step calls with
  | none => rfl
  | some v =>
    simp only [Option.toList_some, List.map_cons, List.map_nil, setAll]
    rcases heap.update cell v with ⟨result, heap₁⟩
    cases result with
    | error e => rfl
    | ok v => rfl

/-- A single metric has one cell and sets no other. -/
theorem confined_single {cell : Handle} {calls : Nat} {step : Nat → Option Value}
    (h : heap.Has [cell]) :
    heap.Confined [cell] ((single cell calls step).update shown heap).2.2
      ((single cell calls step).update shown heap).2.1.handles := by
  rw [update_single_eq]
  refine confined_setAll _ h fun u hu => ?_
  rcases List.mem_map.1 hu with ⟨v, -, rfl⟩
  exact List.mem_cons_self

/-- Two single metrics with the same values after as many calls set the same. -/
theorem alike_single {cell cell' : Handle} {calls : Nat} {step : Nat → Option Value}
    (hhas : heap.Has [cell]) (hhas' : heap'.Has [cell'])
    (h : heap.SameCells heap' [cell] [cell']) :
    let updated := ((single cell calls step).update shown heap).2
    let updated' := ((single cell' calls step).update shown heap').2
    updated.1.Like updated'.1 ∧
      updated.2.SameCells updated'.2 updated.1.handles updated'.1.handles := by
  have hupdates : ∀ u ∈ (step calls).toList.map fun v => ((cell, cell'), v),
      u.1 ∈ [cell].zip [cell'] := by
    intro u hu
    rcases List.mem_map.1 hu with ⟨v, -, rfl⟩
    exact List.mem_cons_self
  have hset := (sameCells_setAll _ h hhas hhas' hupdates).2
  rw [List.map_map, List.map_map] at hset
  simp only [update_single_eq]
  exact ⟨⟨rfl, rfl⟩, hset⟩

end

/-- Each provider of an agent stays in its cells. -/
theorem keepsTo : kind.KeepsTo Like where
  refl p := by
    cases p with
    | process figures pollCount random => exact rfl
    | machine total free processors => exact rfl
    | single cell calls step => exact ⟨rfl, rfl⟩
  kept shown p {heap} _ := by
    cases p with
    | process figures pollCount random => exact List.prefix_refl _
    | machine total free processors =>
      show (machine total free processors).handles <+:
        ((machine total free processors).update shown heap).2.1.handles
      rw [update_machine_eq]
      cases (setAll heap
        [(total, .reading shown.totalMemory), (free, .reading shown.freeMemory)]).1 with
      | error e => exact List.prefix_refl _
      | ok u => exact ⟨_, List.append_assoc _ _ _⟩
    | single cell calls step =>
      show [cell] <+: ((single cell calls step).update shown heap).2.1.handles
      rw [update_single_eq]
      exact List.prefix_refl _
  confined shown p {heap} h := by
    cases p with
    | process figures pollCount random => exact confined_process shown h
    | machine total free processors => exact confined_machine shown h
    | single cell calls step => exact confined_single shown h
  alike shown {p q heap heap'} hlike hhas hhas' h := by
    cases p with
    | process figures pollCount random =>
      cases q with
      | process figures' pollCount' random' =>
        exact alike_process shown hlike hhas hhas' h
      | machine total' free' processors' => cases hlike
      | single cell' calls' step' => cases hlike
    | machine total free processors =>
      cases q with
      | process figures' pollCount' random' => cases hlike
      | machine total' free' processors' => exact alike_machine shown hlike hhas hhas' h
      | single cell' calls' step' => cases hlike
    | single cell calls step =>
      cases q with
      | process figures' pollCount' random' => cases hlike
      | machine total' free' processors' => cases hlike
      | single cell' calls' step' =>
        rcases hlike with ⟨rfl, rfl⟩
        exact alike_single shown hhas hhas' h

end Provider

/-! ## Collectors -/

namespace Collector

/-- The providers of a collector, as registered ones. -/
def registry (c : Collector) (heap : Heap) : Registry Provider := ⟨c.providers, heap⟩

/-- A collector updates providers as ones of a kind are updated. -/
theorem updateEach_eq (shown : Machine) (heap : Heap) (ps : List Provider) :
    updateEach shown heap ps = Provider.kind.updateEach shown heap ps := by
  induction ps generalizing heap with
  | nil => rfl
  | cons p ps ih =>
    rw [updateEach, ProviderKind.updateEach]
    simp only [ih]
    rfl

/-- A collector updates its providers as registered ones are updated. -/
theorem registry_updateAll (shown : Machine) (c : Collector) (heap : Heap) :
    (c.updateAll shown heap).1.registry (c.updateAll shown heap).2 =
      Provider.kind.updateAll shown (c.registry heap) := by
  unfold updateAll ProviderKind.updateAll registry
  rw [updateEach_eq]

/-- Where all handles of a collector are different, each provider has cells of its own. -/
theorem own_of_nodup {c : Collector} {heap : Heap} (hhas : heap.Has c.handles)
    (hnodup : c.handles.Nodup) : Provider.kind.Own (c.registry heap) :=
  ⟨fun p hp x hx => hhas x (List.mem_flatMap.2 ⟨p, hp, hx⟩), (List.nodup_flatMap.1 hnodup).2⟩

/-- Providers of any kind that stay in cells of their own are independent.  The providers
of an agent are of such a kind, and their collector treats them as registered ones, each
of which has cells of its own at the start. -/
theorem independent :
    (∀ (P : Type) (k : ProviderKind P) (r : Registry P), k.KeepsToCells → k.Own r →
        k.Independent r) ∧
      Provider.kind.KeepsToCells ∧
      (∀ (c : Collector) (heap : Heap),
        c.handles = Provider.kind.allHandles (c.registry heap) ∧
          ∀ shown, (c.updateAll shown heap).1.registry (c.updateAll shown heap).2 =
            Provider.kind.updateAll shown (c.registry heap)) ∧
      ∀ heap, Provider.kind.Own ((standard heap).1.registry (standard heap).2) := by
  refine ⟨fun P k r hk h => hk.isIndependent h, ⟨_, Provider.keepsTo⟩,
    fun c heap => ⟨rfl, fun shown => registry_updateAll shown c heap⟩, fun heap => ?_⟩
  rcases counts_standard heap with ⟨poll, hcounts, -⟩
  exact own_of_nodup hcounts.valid hcounts.nodup

/-- The providers of an agent between one that has nothing to read at first and one that
counts by ten. -/
def crowd : Registry Provider :=
  let (agent, heap) := standard .empty
  let (early, heap) := heap.alloc ⟨"early", .total .zero⟩
  let (late, heap) := heap.alloc ⟨"late", .total .zero⟩
  ⟨.single early 0 (fun calls => if calls = 0 then none else some Provider.one) ::
    agent.providers ++ [.single late 0 fun _ => some (.total (.clamp 10))], heap⟩

/-- The first provider fails, and so does the machine, whose memory is not a number.  What
was counted by then is acknowledged, and another total is flushed.  Then there are two
processors. -/
def crowdedDay : List Event :=
  [.update ⟨none, .zero false, .nan, .zero false, [.zero true]⟩,
    .change 1 6 (.acknowledge Provider.one), .change 3 0 .flush,
    .update ⟨none, .zero false, .zero false, .zero false, [.zero true, .zero false]⟩]

/-- Whoever fails, the last provider has counted by ten since its total was flushed, the
count of polls is what was not yet acknowledged, and the machine has found its processors. -/
theorem independent_in_crowd :
    Provider.kind.Own crowd ∧
      Provider.kind.cells (Provider.kind.run crowd crowdedDay) 3 =
        [⟨"late", .total (.clamp 10)⟩] ∧
      (Provider.kind.cells (Provider.kind.run crowd crowdedDay) 1)[6]? =
        some ⟨"PollCount", .total (.clamp 1)⟩ ∧
      (Provider.kind.cells (Provider.kind.run crowd crowdedDay) 2).map Metric.name =
        ["TotalMemory", "FreeMemory", "CPUutilization1", "CPUutilization2"] := by
  have hown : Provider.kind.Own crowd := by
    refine own_of_nodup (c := ⟨crowd.providers⟩) ?_ ?_
    · unfold Heap.Has
      decide +kernel
    · decide +kernel
  have halone := (independent.1 Provider Provider.kind crowd independent.2.1 hown).alone crowdedDay
  rw [halone 3 _ rfl, halone 1 _ rfl, halone 2 _ rfl]
  exact ⟨hown, by decide +kernel, by decide +kernel, by decide +kernel⟩

end Collector

end Agent

end MetricRelay
