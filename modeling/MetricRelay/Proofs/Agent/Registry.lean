import MetricRelay.Agent.Collector
import MetricRelay.Proofs.Metric.Changes

/-!
# Registered providers

Any thing that can be updated and gives out handles can be registered as a provider of
metrics.  If its updates stay in its own cells, and come from nothing else, it does not
matter to it what else is registered: its cells show what they would show if it were
alone.

A provider may make cells in the course of an update, and then its handles are different
ones in the company of others.  So what one run does to the cells of a provider is
compared with another run by the places of the handles, and not by the handles.

Main definitions:

- `Heap.Confined`: what was done to some cells was done to no others.
- `Heap.SameCells`: handles that cannot be told from those of another heap.
- `ProviderKind` and `Registry`: providers of any kind, with all cells.
- `ProviderKind.run`: updates of all providers, and changes through their handles.
- `ProviderKind.KeepsToCells`: what providers of a kind are like.
- `ProviderKind.Independent`: no provider is concerned by the others.

Main results:

- `ProviderKind.KeepsTo.twin_updateEach`: one update of all providers.
- `ProviderKind.KeepsTo.twin_run`: a provider among others and alone.
- `ProviderKind.KeepsToCells.isIndependent`: all that is known of a registry.
-/

namespace MetricRelay

/-! ## Cells of one owner -/

namespace Heap

/-- Handles that have cells. -/
def Has (heap : Heap) (hs : List Handle) : Prop := ∀ x ∈ hs, x.index < heap.size

/-- Some handles have become others, and all that was done to the cells was done to those
of these handles: the handles that were added are those of fresh cells, and no other cell
notices. -/
structure Confined (heap : Heap) (hs : List Handle) (heap' : Heap) (hs' : List Handle) :
    Prop where
  size : heap.size ≤ heap'.size
  has : heap'.Has hs'
  added : ∀ x ∈ hs', x ∈ hs ∨ heap.size ≤ x.index
  others : ∀ x : Handle, x.index < heap.size → x ∉ hs → heap'.get x = heap.get x

/-- As many handles of one heap as of another, such that those in the same places show
the same, and two of them are the same handle if those in the same places are. -/
structure SameCells (heap heap' : Heap) (hs hs' : List Handle) : Prop where
  length : hs.length = hs'.length
  get_eq : ∀ x ∈ hs.zip hs', heap.get x.1 = heap'.get x.2
  eq_iff : ∀ x ∈ hs.zip hs', ∀ y ∈ hs.zip hs', x.1 = y.1 ↔ x.2 = y.2

variable {heap heap' heap₁ heap₂ : Heap} {hs hs' hs₁ hs₂ ts ts' : List Handle}

/-- No cell is ever given up. -/
theorem Has.mono (h : heap.Has hs) (hsize : heap.size ≤ heap'.size) : heap'.Has hs :=
  fun x hx => Nat.lt_of_lt_of_le (h x hx) hsize

/-- Handles of two lists that have cells all have them. -/
theorem Has.append (h : heap.Has hs) (h' : heap.Has hs') : heap.Has (hs ++ hs') :=
  fun x hx => (List.mem_append.1 hx).elim (h x) (h' x)

theorem Confined.refl (h : heap.Has hs) : heap.Confined hs heap hs :=
  ⟨Nat.le_refl _, h, fun _ hx => .inl hx, fun _ _ _ => rfl⟩

/-- What is done twice to cells of one owner is done to no others. -/
theorem Confined.trans (h : heap.Confined hs heap₁ hs₁) (h' : heap₁.Confined hs₁ heap₂ hs₂) :
    heap.Confined hs heap₂ hs₂ where
  size := Nat.le_trans h.size h'.size
  has := h'.has
  added x hx := by
    rcases h'.added x hx with hold | hnew
    · exact h.added x hold
    · exact .inr (Nat.le_trans h.size hnew)
  others x hx hother := by
    have hother₁ : x ∉ hs₁ := fun hmem =>
      (h.added x hmem).elim hother (Nat.not_le.2 hx)
    rw [h'.others x (Nat.lt_of_lt_of_le hx h.size) hother₁, h.others x hx hother]

/-- What is done to the cells of one owner and then to those of another. -/
theorem Confined.append (h : heap.Confined hs heap₁ hs₁) (h' : heap₁.Confined ts heap₂ ts') :
    heap.Confined (hs ++ ts) heap₂ (hs₁ ++ ts') where
  size := Nat.le_trans h.size h'.size
  has := (h.has.mono h'.size).append h'.has
  added x hx := by
    rcases List.mem_append.1 hx with hmem | hmem
    · exact (h.added x hmem).imp_left (List.mem_append_left _)
    · exact (h'.added x hmem).imp (List.mem_append_right _) (Nat.le_trans h.size)
  others x hx hother := by
    rw [List.mem_append, not_or] at hother
    rw [h'.others x (Nat.lt_of_lt_of_le hx h.size) hother.2, h.others x hx hother.1]

/-- The handles of another owner are none that were added. -/
theorem Confined.disjoint (h : heap.Confined hs heap' hs') (hts : heap.Has ts)
    (hdisjoint : hs.Disjoint ts) : hs'.Disjoint ts := fun x hx hmem =>
  (h.added x hx).elim (fun hold => hdisjoint hold hmem) (Nat.not_le.2 (hts x hmem))

/-- Another owner does not notice. -/
theorem Confined.get_eq (h : heap.Confined hs heap' hs') (hts : heap.Has ts)
    (hdisjoint : hs.Disjoint ts) : ∀ x ∈ ts, heap'.get x = heap.get x :=
  fun x hx => h.others x (hts x hx) fun hmem => hdisjoint hmem hx

/-! ### Handles that cannot be told apart -/

/-- Handles cannot be told from themselves. -/
theorem SameCells.refl (heap : Heap) (hs : List Handle) : heap.SameCells heap hs hs := by
  have hzip : hs.zip hs = hs.map fun x => (x, x) := by
    simpa using List.zip_map' (f := id) (g := id) (l := hs)
  have hself : ∀ x ∈ hs.zip hs, x.1 = x.2 := by
    intro x hx
    rw [hzip] at hx
    rcases List.mem_map.1 hx with ⟨y, -, rfl⟩
    rfl
  refine ⟨rfl, fun x hx => congrArg heap.get (hself x hx), fun x hx y hy => ?_⟩
  rw [hself x hx, hself y hy]

/-- Handles in the same places show the same. -/
theorem SameCells.map_get (h : heap.SameCells heap' hs hs') :
    hs.map heap.get = hs'.map heap'.get := by
  have hleft : (hs.zip hs').map Prod.fst = hs := List.map_fst_zip (Nat.le_of_eq h.length)
  have hright : (hs.zip hs').map Prod.snd = hs' := List.map_snd_zip (Nat.le_of_eq h.length.symm)
  calc hs.map heap.get = (hs.zip hs').map fun x => heap.get x.1 := by
        conv_lhs => rw [← hleft, List.map_map]
        rfl
    _ = (hs.zip hs').map fun x => heap'.get x.2 := List.map_congr_left h.get_eq
    _ = hs'.map heap'.get := by
        conv_rhs => rw [← hright, List.map_map]
        rfl

/-- What is done to other cells makes no difference. -/
theorem SameCells.of_get_eq (h : heap.SameCells heap' hs hs')
    (hget : ∀ x ∈ hs, heap₁.get x = heap.get x) : heap₁.SameCells heap' hs hs' :=
  ⟨h.length, fun x hx => (hget x.1 (List.of_mem_zip hx).1).trans (h.get_eq x hx), h.eq_iff⟩

/-- There is a handle at a place on both sides, or on neither. -/
theorem SameCells.getElem? (h : heap.SameCells heap' hs hs') (j : Nat) :
    (hs[j]? = none ∧ hs'[j]? = none) ∨
      ∃ x ∈ hs.zip hs', hs[j]? = some x.1 ∧ hs'[j]? = some x.2 := by
  by_cases hj : j < hs.length
  · have hj' : j < hs'.length := h.length ▸ hj
    have hzip : (hs.zip hs')[j]? = some (hs[j], hs'[j]) :=
      List.getElem?_zip_eq_some.2 ⟨List.getElem?_eq_getElem hj, List.getElem?_eq_getElem hj'⟩
    exact .inr ⟨_, List.mem_of_getElem? hzip, List.getElem?_eq_getElem hj,
      List.getElem?_eq_getElem hj'⟩
  · have hj' : ¬ j < hs'.length := h.length ▸ hj
    exact .inl ⟨List.getElem?_eq_none (Nat.not_lt.1 hj), List.getElem?_eq_none (Nat.not_lt.1 hj')⟩

/-- Handles in the same place keep showing the same with one change through both. -/
theorem SameCells.change (h : heap.SameCells heap' hs hs') (hhas : heap.Has hs)
    (hhas' : heap'.Has hs') {x : Handle × Handle} (hx : x ∈ hs.zip hs') (c : Change) :
    (heap.change x.1 c).SameCells (heap'.change x.2 c) hs hs' := by
  have hmem := List.of_mem_zip hx
  refine ⟨h.length, fun y hy => ?_, h.eq_iff⟩
  rw [get_change (hhas _ hmem.1), get_change (hhas' _ hmem.2), h.get_eq x hx, h.get_eq y hy]
  simp only [h.eq_iff y hy x hx]

/-- A change leaves all cells there. -/
theorem Has.change (h : heap.Has hs) (x : Handle) (c : Change) : (heap.change x c).Has hs := by
  intro y hy
  rw [size_change]
  exact h y hy

end Heap

namespace Agent

open Heap (SameCells)

/-! ## Providers of any kind -/

/-- A kind of provider: what an update does to a provider and to the cells, with what
the machine shows, and the handles that a provider gives out. -/
structure ProviderKind (P : Type) where
  update : Machine → P → Heap → Outcome Unit × P × Heap
  handles : P → List Handle

/-- The providers that are registered, and all cells. -/
structure Registry (P : Type) where
  providers : List P
  heap : Heap

/-- What may happen: an update of all providers, with what the machine shows, and a change
through a handle of a provider.  Providers and their handles are known by their numbers. -/
inductive Event where
  | update (shown : Machine)
  | change (provider cell : Nat) (c : Change)

/-- What happens to a provider, as it would happen if it were alone. -/
def Event.within? (i : Nat) : Event → Option Event
  | .update shown => some (.update shown)
  | .change provider cell c => if provider = i then some (.change 0 cell c) else none

/-- All that happens to a provider. -/
def Event.within (i : Nat) (es : List Event) : List Event := es.filterMap (within? i)

namespace ProviderKind

variable {P : Type}

/-- Update some providers; one that fails does not keep the others from it. -/
def updateEach (k : ProviderKind P) (shown : Machine) (heap : Heap) : List P → List P × Heap
  | [] => ([], heap)
  | p :: ps =>
    let (_, p, heap) := k.update shown p heap
    let (ps, heap) := updateEach k shown heap ps
    (p :: ps, heap)

/-- Update all providers. -/
def updateAll (k : ProviderKind P) (shown : Machine) (r : Registry P) : Registry P :=
  let (providers, heap) := k.updateEach shown r.heap r.providers
  ⟨providers, heap⟩

/-- The handles of a provider, which is known by its number. -/
def handlesOf (k : ProviderKind P) (r : Registry P) (i : Nat) : List Handle :=
  (r.providers[i]?).elim [] k.handles

/-- The handles of all providers. -/
def allHandles (k : ProviderKind P) (r : Registry P) : List Handle := r.providers.flatMap k.handles

/-- What the cells of a provider show. -/
def cells (k : ProviderKind P) (r : Registry P) (i : Nat) : List Metric :=
  (k.handlesOf r i).map r.heap.get

/-- What comes of an event.  There is nothing to be done through a handle that there is
not. -/
def step (k : ProviderKind P) (r : Registry P) : Event → Registry P
  | .update shown => k.updateAll shown r
  | .change i j c =>
    match (k.handlesOf r i)[j]? with
    | some x => { r with heap := r.heap.change x c }
    | none => r

/-- What comes of several events. -/
def run (k : ProviderKind P) (r : Registry P) (es : List Event) : Registry P := es.foldl k.step r

/-! ### What is asked of them -/

/-- A provider stays in its cells: its handles are there for good, and an update does
nothing to other cells, and nothing that depends on other cells.  Where providers are
alike, and their cells cannot be told apart, they cannot be told apart after an update. -/
structure KeepsTo (k : ProviderKind P) (like : P → P → Prop) : Prop where
  refl : ∀ p, like p p
  kept : ∀ shown p {heap : Heap}, heap.Has (k.handles p) →
    k.handles p <+: k.handles (k.update shown p heap).2.1
  confined : ∀ shown p {heap : Heap}, heap.Has (k.handles p) →
    heap.Confined (k.handles p) (k.update shown p heap).2.2
      (k.handles (k.update shown p heap).2.1)
  alike : ∀ shown {p q : P} {heap heap' : Heap}, like p q → heap.Has (k.handles p) →
    heap'.Has (k.handles q) → heap.SameCells heap' (k.handles p) (k.handles q) →
      like (k.update shown p heap).2.1 (k.update shown q heap').2.1 ∧
        (k.update shown p heap).2.2.SameCells (k.update shown q heap').2.2
          (k.handles (k.update shown p heap).2.1) (k.handles (k.update shown q heap').2.1)

/-- Providers stay in their cells, with some notion of when two of them are alike. -/
def KeepsToCells (k : ProviderKind P) : Prop := ∃ like, k.KeepsTo like

/-- Each provider has cells of its own. -/
structure Own (k : ProviderKind P) (r : Registry P) : Prop where
  has : ∀ p ∈ r.providers, r.heap.Has (k.handles p)
  disjoint : r.providers.Pairwise fun p q => (k.handles p).Disjoint (k.handles q)

/-! ### What is said of them -/

/-- Each provider was updated once, in the order in which they are registered.  It finds
the cells as the one before it has left them, even if that has failed. -/
def UpdatesInOrder (k : ProviderKind P) (shown : Machine) (r r' : Registry P) : Prop :=
  r'.providers.length = r.providers.length ∧
    ∃ heaps : Nat → Heap, heaps 0 = r.heap ∧ heaps r.providers.length = r'.heap ∧
      ∀ i p, r.providers[i]? = some p → ∃ p', r'.providers[i]? = some p' ∧
        (k.update shown p (heaps i)).2 = (p', heaps (i + 1))

/-- No provider is concerned by the others.  After any events its cells show what they
would show if it were alone; every update is one of each provider in order; and the
handles of all providers are those of each in order, which are there for good and show
what comes of later events. -/
structure Independent (k : ProviderKind P) (r : Registry P) : Prop where
  alone : ∀ es i p, r.providers[i]? = some p →
    k.cells (k.run r es) i = k.cells (k.run ⟨[p], r.heap⟩ (Event.within i es)) 0
  inOrder : ∀ es shown, k.UpdatesInOrder shown (k.run r es) (k.run r (es ++ [.update shown]))
  handles : ∀ es, k.allHandles (k.run r es) =
    (List.range r.providers.length).flatMap (k.handlesOf (k.run r es))
  kept : ∀ es later i, k.handlesOf (k.run r es) i <+: k.handlesOf (k.run r (es ++ later)) i
  live : ∀ es later i p, r.providers[i]? = some p →
    (k.handlesOf (k.run r es) i).map (k.run r (es ++ later)).heap.get <+:
      k.cells (k.run ⟨[p], r.heap⟩ (Event.within i (es ++ later))) 0

/-! ## One update of all providers -/

section

variable {k : ProviderKind P} {like : P → P → Prop} {p q : P} {ps : List P} {heap heap' : Heap}
  {shown : Machine} {i : Nat}

/-- All providers but the first still have cells of their own. -/
theorem Own.tail (h : k.Own ⟨p :: ps, heap⟩) : k.Own ⟨ps, heap⟩ :=
  ⟨fun q hq => h.has q (List.mem_cons_of_mem p hq), (List.pairwise_cons.1 h.disjoint).2⟩

/-- Collectors still own their cells after others were made. -/
theorem Own.of_size_le (h : k.Own ⟨ps, heap⟩) (hsize : heap.size ≤ heap'.size) :
    k.Own ⟨ps, heap'⟩ :=
  ⟨fun p hp => (h.has p hp).mono hsize, h.disjoint⟩

/-- All handles of all providers have cells. -/
theorem Own.has_flatMap (h : k.Own ⟨ps, heap⟩) : heap.Has (ps.flatMap k.handles) := by
  intro x hx
  rcases List.mem_flatMap.1 hx with ⟨p, hp, hmem⟩
  exact h.has p hp x hmem

/-- No handle of the first provider is one of a later provider. -/
theorem Own.disjoint_flatMap (h : k.Own ⟨p :: ps, heap⟩) :
    (k.handles p).Disjoint (ps.flatMap k.handles) := by
  intro x hx hmem
  rcases List.mem_flatMap.1 hmem with ⟨q, hq, hx'⟩
  exact (List.pairwise_cons.1 h.disjoint).1 q hq hx hx'

/-- Updates of some providers do nothing to the cells of others. -/
theorem KeepsTo.confined_updateEach (hk : k.KeepsTo like) (shown : Machine)
    (h : k.Own ⟨ps, heap⟩) :
    heap.Confined (ps.flatMap k.handles) (k.updateEach shown heap ps).2
      ((k.updateEach shown heap ps).1.flatMap k.handles) := by
  induction ps generalizing heap with
  | nil => exact .refl h.has_flatMap
  | cons p ps ih =>
    have hone := hk.confined shown p (h.has p List.mem_cons_self)
    exact hone.append (ih (h.tail.of_size_le hone.size))

/-- After an update each provider still has cells of its own. -/
theorem KeepsTo.own_updateEach (hk : k.KeepsTo like) (shown : Machine) (h : k.Own ⟨ps, heap⟩) :
    k.Own ⟨(k.updateEach shown heap ps).1, (k.updateEach shown heap ps).2⟩ := by
  induction ps generalizing heap with
  | nil => exact h
  | cons p ps ih =>
    have hone := hk.confined shown p (h.has p List.mem_cons_self)
    have hps := h.tail.of_size_le hone.size
    have hrest := hk.confined_updateEach shown hps
    refine ⟨fun q hq => ?_, List.pairwise_cons.2 ⟨fun q hq x hx hx' => ?_, (ih hps).disjoint⟩⟩
    · rcases List.mem_cons.1 hq with rfl | hq
      · exact hone.has.mono hrest.size
      · exact (ih hps).has q hq
    · -- A handle of a later provider was there before, or its cell was made later.
      rcases hrest.added x (List.mem_flatMap.2 ⟨q, hq, hx'⟩) with hold | hnew
      · exact hone.disjoint h.tail.has_flatMap h.disjoint_flatMap hx hold
      · exact Nat.not_le.2 (hone.has x hx) hnew

/-- An update of all providers is to one of them what an update of that one is in other
cells, if these cannot be told from its own. -/
theorem KeepsTo.twin_updateEach (hk : k.KeepsTo like) (shown : Machine) (h : k.Own ⟨ps, heap⟩)
    (hp : ps[i]? = some p) (hlike : like p q) (hq : heap'.Has (k.handles q))
    (hsame : heap.SameCells heap' (k.handles p) (k.handles q)) :
    ∃ p', (k.updateEach shown heap ps).1[i]? = some p' ∧
      like p' (k.update shown q heap').2.1 ∧
      (k.updateEach shown heap ps).2.SameCells (k.update shown q heap').2.2 (k.handles p')
        (k.handles (k.update shown q heap').2.1) := by
  induction ps generalizing heap i with
  | nil => cases hp
  | cons first ps ih =>
    have hone := hk.confined shown first (h.has first List.mem_cons_self)
    have hps := h.tail.of_size_le hone.size
    cases i with
    | zero =>
      cases hp
      rcases hk.alike shown hlike (h.has p List.mem_cons_self) hq hsame with ⟨hlike', hsame'⟩
      have hapart := hone.disjoint h.tail.has_flatMap h.disjoint_flatMap
      exact ⟨_, rfl, hlike', hsame'.of_get_eq
        ((hk.confined_updateEach shown hps).get_eq hone.has fun _ hx hx' => hapart hx' hx)⟩
    | succ i =>
      have hmem : p ∈ ps := List.mem_of_getElem? hp
      have hapart := (List.pairwise_cons.1 h.disjoint).1 p hmem
      exact ih hps hp (hsame.of_get_eq (hone.get_eq (h.tail.has p hmem) hapart))

/-- The handles of each provider are still there after an update. -/
theorem KeepsTo.kept_updateEach (hk : k.KeepsTo like) (shown : Machine) (h : k.Own ⟨ps, heap⟩)
    (i : Nat) :
    (ps[i]?).elim [] k.handles <+: ((k.updateEach shown heap ps).1[i]?).elim [] k.handles := by
  induction ps generalizing heap i with
  | nil => exact List.prefix_refl _
  | cons p ps ih =>
    have hp := h.has p List.mem_cons_self
    cases i with
    | zero => exact hk.kept shown p hp
    | succ i => exact ih (h.tail.of_size_le (hk.confined shown p hp).size) i

/-- There are as many providers after an update. -/
theorem length_updateEach (k : ProviderKind P) (shown : Machine) (heap : Heap) (ps : List P) :
    (k.updateEach shown heap ps).1.length = ps.length := by
  induction ps generalizing heap with
  | nil => rfl
  | cons p ps ih => exact congrArg Nat.succ (ih _)

/-- An update of all providers is one of each of them, in their order. -/
theorem updatesInOrder_updateAll (k : ProviderKind P) (shown : Machine) (r : Registry P) :
    k.UpdatesInOrder shown r (k.updateAll shown r) := by
  rcases r with ⟨ps, heap⟩
  refine ⟨k.length_updateEach shown heap ps, ?_⟩
  show ∃ heaps : Nat → Heap, heaps 0 = heap ∧
    heaps ps.length = (k.updateEach shown heap ps).2 ∧ ∀ i p, ps[i]? = some p →
      ∃ p', (k.updateEach shown heap ps).1[i]? = some p' ∧
        (k.update shown p (heaps i)).2 = (p', heaps (i + 1))
  induction ps generalizing heap with
  | nil => exact ⟨fun _ => heap, rfl, rfl, fun i p hp => by cases hp⟩
  | cons first ps ih =>
    rcases ih (k.update shown first heap).2.2 with ⟨heaps, hstart, hend, hsteps⟩
    refine ⟨fun i => i.casesOn heap heaps, rfl, hend, fun i p hp => ?_⟩
    cases i with
    | zero =>
      cases hp
      exact ⟨_, rfl, Prod.ext rfl hstart.symm⟩
    | succ i => exact hsteps i p hp

end

/-! ## Runs -/

section

variable {k : ProviderKind P} {like : P → P → Prop} {p : P} {r s : Registry P} {i : Nat}

theorem run_append (k : ProviderKind P) (r : Registry P) (es later : List Event) :
    k.run r (es ++ later) = k.run (k.run r es) later :=
  List.foldl_append

/-- A change is made if there is such a handle. -/
theorem step_change_cases (k : ProviderKind P) (r : Registry P) (i j : Nat) (c : Change) :
    ((k.handlesOf r i)[j]? = none ∧ k.step r (.change i j c) = r) ∨
      ∃ x, (k.handlesOf r i)[j]? = some x ∧
        k.step r (.change i j c) = { r with heap := r.heap.change x c } := by
  simp only [step]
  cases (k.handlesOf r i)[j]? with
  | none => exact .inl ⟨rfl, rfl⟩
  | some x => exact .inr ⟨x, rfl, rfl⟩

/-- A change through a handle concerns no provider, only cells. -/
theorem providers_change (k : ProviderKind P) (r : Registry P) (i j : Nat) (c : Change) :
    (k.step r (.change i j c)).providers = r.providers := by
  rcases k.step_change_cases r i j c with ⟨-, hstep⟩ | ⟨x, -, hstep⟩
  · rw [hstep]
  · rw [hstep]

/-- The handles of a provider are those that it gives out. -/
theorem handlesOf_eq (hp : r.providers[i]? = some p) : k.handlesOf r i = k.handles p := by
  unfold handlesOf
  rw [hp]
  rfl

/-- After any event each provider still has cells of its own. -/
theorem KeepsTo.own_step (hk : k.KeepsTo like) (h : k.Own r) (e : Event) : k.Own (k.step r e) := by
  cases e with
  | update shown => exact hk.own_updateEach shown h
  | change i j c =>
    rcases k.step_change_cases r i j c with ⟨-, hstep⟩ | ⟨x, -, hstep⟩
    · rw [hstep]
      exact h
    · rw [hstep]
      exact ⟨fun p hp => (h.has p hp).change x c, h.disjoint⟩

/-- A collector that keeps to itself owns its cells after any events. -/
theorem KeepsTo.own_run (hk : k.KeepsTo like) (h : k.Own r) (es : List Event) :
    k.Own (k.run r es) := by
  induction es generalizing r with
  | nil => exact h
  | cons e es ih => exact ih (hk.own_step h e)

/-- No event adds a provider. -/
theorem length_step (k : ProviderKind P) (r : Registry P) (e : Event) :
    (k.step r e).providers.length = r.providers.length := by
  cases e with
  | update shown => exact k.length_updateEach shown r.heap r.providers
  | change i j c => exact congrArg List.length (k.providers_change r i j c)

theorem length_run (k : ProviderKind P) (r : Registry P) (es : List Event) :
    (k.run r es).providers.length = r.providers.length := by
  induction es generalizing r with
  | nil => rfl
  | cons e es ih => exact (ih (k.step r e)).trans (k.length_step r e)

/-- Handles that were given out are there for good. -/
theorem KeepsTo.kept_step (hk : k.KeepsTo like) (h : k.Own r) (e : Event) (i : Nat) :
    k.handlesOf r i <+: k.handlesOf (k.step r e) i := by
  cases e with
  | update shown => exact hk.kept_updateEach shown h i
  | change i' j c => simp only [handlesOf, providers_change, List.prefix_refl]

/-- After any events the handles that were given out are still there. -/
theorem KeepsTo.kept_run (hk : k.KeepsTo like) (h : k.Own r) (es : List Event) (i : Nat) :
    k.handlesOf r i <+: k.handlesOf (k.run r es) i := by
  induction es generalizing r with
  | nil => exact List.prefix_refl _
  | cons e es ih => exact (hk.kept_step h e i).trans (ih (hk.own_step h e))

/-- The handles of all providers are those of each of them, in their order. -/
theorem allHandles_eq (k : ProviderKind P) (r : Registry P) :
    k.allHandles r = (List.range r.providers.length).flatMap (k.handlesOf r) := by
  rcases r with ⟨ps, heap⟩
  show ps.flatMap k.handles = (List.range ps.length).flatMap fun i => (ps[i]?).elim [] k.handles
  induction ps with
  | nil => rfl
  | cons p ps ih =>
    rw [List.length_cons, List.range_succ_eq_map, List.flatMap_cons, List.flatMap_cons,
      List.flatMap_map, ih]
    rfl

/-! ### A provider among others and alone -/

/-- A provider and one that is alone, in other cells, cannot be told apart. -/
def Twin (k : ProviderKind P) (like : P → P → Prop) (r : Registry P) (i : Nat)
    (s : Registry P) : Prop :=
  ∃ p q, r.providers[i]? = some p ∧ s.providers = [q] ∧ like p q ∧
    r.heap.SameCells s.heap (k.handles p) (k.handles q)

/-- Providers that cannot be told apart show the same. -/
theorem Twin.cells_eq (h : k.Twin like r i s) : k.cells r i = k.cells s 0 := by
  rcases h with ⟨p, q, hp, hq, -, hsame⟩
  have hzero : s.providers[0]? = some q := by rw [hq]; rfl
  unfold cells
  rw [handlesOf_eq hp, handlesOf_eq hzero]
  exact hsame.map_get

/-- Handles of two providers are those of different cells. -/
theorem Own.disjoint_of_ne (h : k.Own r) {i' : Nat} {p' : P} (hp : r.providers[i]? = some p)
    (hp' : r.providers[i']? = some p') (hne : i' ≠ i) : (k.handles p').Disjoint (k.handles p) := by
  rcases List.getElem?_eq_some_iff.1 hp with ⟨hi, rfl⟩
  rcases List.getElem?_eq_some_iff.1 hp' with ⟨hi', rfl⟩
  rcases Nat.lt_or_gt_of_ne hne with hlt | hgt
  · exact List.pairwise_iff_getElem.1 h.disjoint i' i hi' hi hlt
  · exact fun x hx hx' => List.pairwise_iff_getElem.1 h.disjoint i i' hi hi' hgt hx' hx

/-- A change through a handle of another provider makes no difference. -/
theorem Twin.change_of_ne (h : k.Twin like r i s) (hown : k.Own r) {i' : Nat} (hne : i' ≠ i)
    (j : Nat) (c : Change) : k.Twin like (k.step r (.change i' j c)) i s := by
  rcases k.step_change_cases r i' j c with ⟨-, hstep⟩ | ⟨x, hx, hstep⟩
  · rw [hstep]
    exact h
  · rcases h with ⟨p, q, hp, hq, hlike, hsame⟩
    cases hp' : r.providers[i']? with
    | none =>
      unfold handlesOf at hx
      rw [hp'] at hx
      cases hx
    | some p' =>
      rw [handlesOf_eq hp'] at hx
      have hmem := List.mem_of_getElem? hx
      rw [hstep]
      refine ⟨p, q, hp, hq, hlike, hsame.of_get_eq fun y hy => ?_⟩
      rw [Heap.get_change (hown.has p' (List.mem_of_getElem? hp') x hmem), if_neg]
      rintro rfl
      exact hown.disjoint_of_ne hp hp' hne hmem hy

/-- A change through a handle is the same change in both. -/
theorem Twin.change (h : k.Twin like r i s) (hr : k.Own r) (hs : k.Own s) (j : Nat) (c : Change) :
    k.Twin like (k.step r (.change i j c)) i (k.step s (.change 0 j c)) := by
  rcases h with ⟨p, q, hp, hq, hlike, hsame⟩
  have hzero : s.providers[0]? = some q := by rw [hq]; rfl
  have hcases := hsame.getElem? j
  rw [← handlesOf_eq hp, ← handlesOf_eq hzero] at hcases
  rcases hcases with ⟨hnone, hnone'⟩ | ⟨x, hx, hsome, hsome'⟩
  · simp only [step, hnone, hnone']
    exact ⟨p, q, hp, hq, hlike, hsame⟩
  · simp only [step, hsome, hsome']
    rw [handlesOf_eq hp, handlesOf_eq hzero] at hx
    exact ⟨p, q, hp, hq, hlike, hsame.change (hr.has p (List.mem_of_getElem? hp))
      (hs.has q (List.mem_of_getElem? hzero)) hx c⟩

/-- After one event a provider still cannot be told from the one that is alone. -/
theorem KeepsTo.twin_step (hk : k.KeepsTo like) (hr : k.Own r) (hs : k.Own s)
    (h : k.Twin like r i s) (e : Event) :
    k.Twin like (k.step r e) i (k.run s (e.within? i).toList) := by
  cases e with
  | update shown =>
    rcases h with ⟨p, q, hp, hq, hlike, hsame⟩
    have hhas : s.heap.Has (k.handles q) := hs.has q (by rw [hq]; exact List.mem_cons_self)
    rcases hk.twin_updateEach shown hr hp hlike hhas hsame with ⟨p', hp', hlike', hsame'⟩
    have halone : k.run s [.update shown] =
        ⟨[(k.update shown q s.heap).2.1], (k.update shown q s.heap).2.2⟩ := by
      show k.updateAll shown s = _
      unfold updateAll
      rw [hq]
      rfl
    show k.Twin like (k.updateAll shown r) i (k.run s [.update shown])
    rw [halone]
    exact ⟨p', _, hp', rfl, hlike', hsame'⟩
  | change i' j c =>
    by_cases hi : i' = i
    · subst hi
      rw [Event.within?, if_pos rfl]
      exact h.change hr hs j c
    · rw [Event.within?, if_neg hi]
      exact h.change_of_ne hr hi j c

/-- Whatever happens, a provider among others cannot be told from one that is alone and to
which the same happens. -/
theorem KeepsTo.twin_run (hk : k.KeepsTo like) (hr : k.Own r) (hs : k.Own s)
    (h : k.Twin like r i s) (es : List Event) :
    k.Twin like (k.run r es) i (k.run s (Event.within i es)) := by
  induction es generalizing r s with
  | nil => exact h
  | cons e es ih =>
    have hsplit : Event.within i (e :: es) = (e.within? i).toList ++ Event.within i es := by
      unfold Event.within
      cases he : e.within? i with
      | none => exact List.filterMap_cons_none he
      | some e' => exact List.filterMap_cons_some he
    rw [hsplit, run_append]
    exact ih (hk.own_step hr e) (hk.own_run hs _) (hk.twin_step hr hs h e)

/-- At the start a provider and itself, alone, cannot be told apart. -/
theorem KeepsTo.twin_alone (hk : k.KeepsTo like) (h : k.Own r) (hp : r.providers[i]? = some p)
    (es : List Event) : k.Twin like (k.run r es) i (k.run ⟨[p], r.heap⟩ (Event.within i es)) := by
  have halone : k.Own ⟨[p], r.heap⟩ := by
    refine ⟨fun q hq => ?_, List.pairwise_singleton _ _⟩
    rw [List.mem_singleton.1 hq]
    exact h.has p (List.mem_of_getElem? hp)
  exact hk.twin_run h halone ⟨p, p, hp, rfl, hk.refl p, .refl r.heap _⟩ es

end

/-- Providers that stay in cells of their own are not concerned by one another. -/
theorem KeepsToCells.isIndependent {k : ProviderKind P} (hk : k.KeepsToCells) {r : Registry P}
    (h : k.Own r) : k.Independent r := by
  rcases hk with ⟨like, hk⟩
  have hkept (es later : List Event) (i : Nat) :
      k.handlesOf (k.run r es) i <+: k.handlesOf (k.run r (es ++ later)) i := by
    rw [run_append]
    exact hk.kept_run (hk.own_run h es) later i
  refine ⟨fun es i p hp => (hk.twin_alone h hp es).cells_eq, fun es shown => ?_, fun es => ?_,
    hkept, fun es later i p hp => ?_⟩
  · rw [run_append]
    exact k.updatesInOrder_updateAll shown (k.run r es)
  · rw [allHandles_eq, length_run]
  · rw [← (hk.twin_alone h hp (es ++ later)).cells_eq]
    exact (hkept es later i).map _

end ProviderKind

end Agent

end MetricRelay
