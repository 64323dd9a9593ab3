import Mathlib.Data.List.Induction
import Mathlib.Logic.Relation
import MetricRelay.Proofs.Metric.Changes

/-!
# Programs with handles

A program makes cells and copies handles of them, and changes what is in a cell through
any of its handles.  Each of its variables is a handle.  Which variables share a cell can
be read off the program text: those that were made from one another by copying the
handle.  What a variable shows can be reckoned from the changes that the program made
through the variables of the same cell.

Main definitions:

- `Statement` and `Workspace.run`: programs.
- `Workspace.Clones`: a variable that was made by copying another one.
- `Workspace.history`: the changes of one cell in the course of a program.
- `Workspace.Governed`: what is known of the variables of a program.

Main results:

- `Workspace.shown_run`: what a variable shows after further statements.
- `Workspace.sameCell_iff`: the variables of one cell.
- `Workspace.governed`: every program.
-/

namespace MetricRelay

/-- A statement of a program with handles.  Variables are known by their numbers, in the
order in which they are made. -/
inductive Statement where
  | new (m : Metric)
  | parse (kind : Kind) (name raw : String)
  | clone (i : Nat)
  | detach (i : Nat)
  | change (i : Nat) (c : Change)

/-- The cells of a program and the handles in its variables. -/
structure Workspace where
  heap : Heap
  handles : List Handle

namespace Workspace

/-- No cells and no variables. -/
def empty : Workspace := ⟨.empty, []⟩

/-- Put a handle into the next variable. -/
def bind (w : Workspace) (made : Handle × Heap) : Workspace := ⟨made.2, w.handles ++ [made.1]⟩

/-- Carry out a statement.  A text that is no value makes no variable, and there is
nothing to be done to a variable that was never made. -/
def step (w : Workspace) : Statement → Workspace
  | .new m => w.bind (w.heap.alloc m)
  | .parse kind name raw =>
    match Metric.parse kind name raw with
    | .ok m => w.bind (w.heap.alloc m)
    | .error _ => w
  | .clone i =>
    match w.handles[i]? with
    | some h => w.bind (h, w.heap)
    | none => w
  | .detach i =>
    match w.handles[i]? with
    | some h => w.bind (w.heap.detach h)
    | none => w
  | .change i c =>
    match w.handles[i]? with
    | some h => { w with heap := w.heap.change h c }
    | none => w

/-- Carry out several statements. -/
def run (w : Workspace) (p : List Statement) : Workspace := p.foldl step w

/-- What a variable shows. -/
def shown (w : Workspace) (i : Nat) : Option Metric := (w.handles[i]?).map w.heap.get

/-- What an update through a variable is answered. -/
def answer (w : Workspace) (i : Nat) (u : Value) : Option (Outcome Value) :=
  (w.handles[i]?).map fun h => (w.heap.update h u).1

/-- Two variables are handles of one cell. -/
def SameCell (w : Workspace) (i j : Nat) : Prop :=
  ∃ h, w.handles[i]? = some h ∧ w.handles[j]? = some h

instance (w : Workspace) (i j : Nat) : Decidable (w.SameCell i j) :=
  decidable_of_iff (∃ h ∈ w.handles, w.handles[i]? = some h ∧ w.handles[j]? = some h)
    ⟨fun ⟨h, _, hi, hj⟩ => ⟨h, hi, hj⟩,
      fun ⟨h, hi, hj⟩ => ⟨h, List.mem_of_getElem? hi, hi, hj⟩⟩

/-- The second variable was made in the course of a program by copying the handle in the
first. -/
def Clones (p : List Statement) (i j : Nat) : Prop :=
  ∃ before after, p = before ++ .clone i :: after ∧
    i < (empty.run before).handles.length ∧ j = (empty.run before).handles.length

/-- The changes that are made through the variables of one cell. -/
def history (w : Workspace) (i : Nat) : List Statement → List Change
  | [] => []
  | .change j c :: p =>
    if w.SameCell i j then c :: (w.step (.change j c)).history i p
    else (w.step (.change j c)).history i p
  | s :: p => (w.step s).history i p

/-! ## Steps -/

/-- Each variable is the handle of a cell. -/
def Valid (w : Workspace) : Prop := ∀ h ∈ w.handles, h.index < w.heap.size

/-- What a statement does to the variables: it makes one for a fresh cell, or one for the
cell of another variable, or none. -/
inductive Binds (w : Workspace) : Statement → Workspace → Prop
  | fresh {s : Statement} {heap : Heap} (size : heap.size = w.heap.size + 1) :
      Binds w s (w.bind (w.heap.next, heap))
  | copied {i : Nat} {h : Handle} (bound : w.handles[i]? = some h) :
      Binds w (.clone i) (w.bind (h, w.heap))
  | none {s : Statement} {heap : Heap} (size : heap.size = w.heap.size) :
      Binds w s { w with heap := heap }

section

variable {w w' : Workspace} {i j : Nat} {h h' : Handle} {m : Metric} {s : Statement}

/-- A variable shows the metric in its cell. -/
theorem shown_eq_some_iff : w.shown i = some m ↔ ∃ h, w.handles[i]? = some h ∧ w.heap.get h = m :=
  Option.map_eq_some_iff

/-- A statement makes at most one variable. -/
theorem binds_step (w : Workspace) (s : Statement) : w.Binds s (w.step s) := by
  cases s with
  | new m => exact .fresh (w.heap.size_alloc m)
  | parse kind name raw =>
    simp only [step]
    cases Metric.parse kind name raw with
    | ok m => exact .fresh (w.heap.size_alloc m)
    | error e => exact .none rfl
  | clone i =>
    simp only [step]
    cases hi : w.handles[i]? with
    | some h => exact .copied hi
    | none => exact .none rfl
  | detach i =>
    simp only [step]
    cases w.handles[i]? with
    | some h => exact .fresh (w.heap.size_alloc _)
    | none => exact .none rfl
  | change i c =>
    simp only [step]
    cases w.handles[i]? with
    | some h => exact .none (w.heap.size_change h c)
    | none => exact .none rfl

/-- A new variable takes the place of no other. -/
theorem getElem?_bind (hi : w.handles[i]? = some h) (made : Handle × Heap) :
    (w.bind made).handles[i]? = some h := by
  rcases List.getElem?_eq_some_iff.1 hi with ⟨hlt, -⟩
  exact (List.getElem?_append_left hlt).trans hi

theorem getElem?_bind_length (w : Workspace) (made : Handle × Heap) :
    (w.bind made).handles[w.handles.length]? = some made.1 :=
  List.getElem?_concat_length

/-- The variables after one was made: those before it, and the new one. -/
theorem getElem?_bind_cases {made : Handle × Heap} (hi : (w.bind made).handles[i]? = some h) :
    w.handles[i]? = some h ∨ i = w.handles.length ∧ h = made.1 := by
  have hlt : i < (w.handles ++ [made.1]).length := (List.getElem?_eq_some_iff.1 hi).1
  rw [List.length_append, List.length_singleton] at hlt
  rcases Nat.lt_or_eq_of_le (Nat.le_of_lt_succ hlt) with hold | rfl
  · exact .inl ((List.getElem?_append_left hold).symm.trans hi)
  · rw [getElem?_bind_length] at hi
    exact .inr ⟨rfl, (Option.some.inj hi).symm⟩

/-- A variable is the handle of one cell for good. -/
theorem Binds.getElem? (hbinds : w.Binds s w') (hi : w.handles[i]? = some h) :
    w'.handles[i]? = some h := by
  cases hbinds with
  | fresh size => exact getElem?_bind hi _
  | copied bound => exact getElem?_bind hi _
  | none size => exact hi

/-- All variables are handles of cells if the new one is. -/
theorem Valid.bind (hvalid : w.Valid) {made : Handle × Heap} (hsize : w.heap.size ≤ made.2.size)
    (hmade : made.1.index < made.2.size) : (w.bind made).Valid := by
  intro x hx
  rcases List.mem_append.1 hx with hold | hnew
  · exact Nat.lt_of_lt_of_le (hvalid x hold) hsize
  · rw [List.mem_singleton.1 hnew]
    exact hmade

/-- After a statement all variables are handles of cells. -/
theorem Binds.valid (hbinds : w.Binds s w') (hvalid : w.Valid) : w'.Valid := by
  cases hbinds with
  | fresh size =>
    refine hvalid.bind (by simp only [size]; omega) ?_
    rw [size]
    exact Nat.lt_succ_self _
  | copied bound => exact hvalid.bind (Nat.le_refl _) (hvalid _ (List.mem_of_getElem? bound))
  | none size =>
    intro x hx
    rw [size]
    exact hvalid x hx

theorem Valid.index_lt (hvalid : w.Valid) (hi : w.handles[i]? = some h) :
    h.index < w.heap.size :=
  hvalid h (List.mem_of_getElem? hi)

/-- No variable notices that another one is made. -/
theorem shown_bind_alloc (hvalid : w.Valid) (hi : w.shown i = some m) (n : Metric) :
    (w.bind (w.heap.alloc n)).shown i = some m := by
  rcases shown_eq_some_iff.1 hi with ⟨h, hbound, hget⟩
  refine shown_eq_some_iff.2 ⟨h, getElem?_bind hbound _, ?_⟩
  rw [← hget]
  exact Heap.get_alloc_of_lt (hvalid.index_lt hbound) n

theorem shown_bind_alloc_length (w : Workspace) (n : Metric) :
    (w.bind (w.heap.alloc n)).shown w.handles.length = some n :=
  shown_eq_some_iff.2 ⟨_, getElem?_bind_length w _, Heap.get_eq_of_get? (w.heap.get?_alloc_next n)⟩

/-- Two variables share a cell if they hold one handle. -/
theorem sameCell_iff_of_bound (hi : w.handles[i]? = some h) (hj : w.handles[j]? = some h') :
    w.SameCell i j ↔ h = h' := by
  constructor
  · rintro ⟨x, hx, hx'⟩
    exact (Option.some.inj (hi.symm.trans hx)).trans (Option.some.inj (hx'.symm.trans hj))
  · rintro rfl
    exact ⟨h, hi, hj⟩

/-- What a variable shows after a statement: a change that was made through a variable of
the same cell is seen, and nothing else is. -/
theorem shown_step (hvalid : w.Valid) (hi : w.shown i = some m) (s : Statement) :
    (w.step s).shown i = some
      (match s with
      | .change j c => if w.SameCell i j then m.change c else m
      | _ => m) := by
  cases s with
  | new n => exact shown_bind_alloc hvalid hi n
  | parse kind name raw =>
    simp only [step]
    cases Metric.parse kind name raw with
    | ok n => exact shown_bind_alloc hvalid hi n
    | error e => exact hi
  | clone j =>
    simp only [step]
    cases w.handles[j]? with
    | some x =>
      rcases shown_eq_some_iff.1 hi with ⟨h, hbound, hget⟩
      exact shown_eq_some_iff.2 ⟨h, getElem?_bind hbound _, hget⟩
    | none => exact hi
  | detach j =>
    simp only [step]
    cases w.handles[j]? with
    | some x => exact shown_bind_alloc hvalid hi _
    | none => exact hi
  | change j c =>
    simp only [step]
    cases hj : w.handles[j]? with
    | some x =>
      rcases shown_eq_some_iff.1 hi with ⟨h, hbound, rfl⟩
      refine shown_eq_some_iff.2 ⟨h, hbound, ?_⟩
      rw [Heap.get_change (hvalid.index_lt hj)]
      simp only [sameCell_iff_of_bound hbound hj]
      split
      · rename_i heq
        rw [heq]
      · rfl
    | none =>
      have hother : ¬ w.SameCell i j := fun ⟨x, _, hx⟩ => by
        rw [hj] at hx
        cases hx
      rw [if_neg hother]
      exact hi

end

/-! ## Runs -/

section

variable {w : Workspace} {p : List Statement} {i j : Nat} {h : Handle} {m : Metric}

theorem run_append (w : Workspace) (p q : List Statement) : w.run (p ++ q) = (w.run p).run q :=
  List.foldl_append

/-- Each variable of a program is the handle of a cell. -/
theorem valid_run (hvalid : w.Valid) (p : List Statement) : (w.run p).Valid := by
  induction p generalizing w with
  | nil => exact hvalid
  | cons s p ih => exact ih ((w.binds_step s).valid hvalid)

theorem valid_empty : empty.Valid := fun _ hx => by cases hx

/-- A variable is the handle of one cell through all of a program. -/
theorem getElem?_run (hi : w.handles[i]? = some h) (p : List Statement) :
    (w.run p).handles[i]? = some h := by
  induction p generalizing w with
  | nil => exact hi
  | cons s p ih => exact ih ((w.binds_step s).getElem? hi)

/-- What a variable shows after further statements comes from the changes of its cell. -/
theorem shown_run (hvalid : w.Valid) (hi : w.shown i = some m) (p : List Statement) :
    (w.run p).shown i = some ((w.history i p).foldl Metric.change m) := by
  induction p generalizing w m with
  | nil => exact hi
  | cons s p ih =>
    have hrest := ih ((w.binds_step s).valid hvalid) (shown_step hvalid hi s)
    have hrun : w.run (s :: p) = (w.step s).run p := rfl
    rw [hrun, hrest]
    cases s with
    | change j c =>
      simp only [history]
      split <;> rfl
    | new n => rfl
    | parse kind name raw => rfl
    | clone j => rfl
    | detach j => rfl

/-- No changes make a metric another one. -/
theorem key_foldl_change (m : Metric) (cs : List Change) : (cs.foldl Metric.change m).key = m.key := by
  induction cs generalizing m with
  | nil => rfl
  | cons c cs ih => rw [List.foldl_cons, ih, Metric.key_change]

/-! ## The variables of a cell -/

/-- A variable that was cloned stays a clone. -/
theorem Clones.snoc (h : Clones p i j) (s : Statement) : Clones (p ++ [s]) i j := by
  rcases h with ⟨before, after, rfl, hi, hj⟩
  exact ⟨before, after ++ [s], by simp, hi, hj⟩

theorem run_snoc (p : List Statement) (s : Statement) :
    empty.run (p ++ [s]) = (empty.run p).step s := run_append _ _ _

/-- All variables of one cell were made from one of them. -/
theorem exists_original (p : List Statement) (h : Handle) :
    ∃ r, ∀ j, (empty.run p).handles[j]? = some h → Relation.EqvGen (Clones p) r j := by
  induction p using List.reverseRecOn with
  | nil => exact ⟨0, fun j hj => by cases hj⟩
  | append_singleton p s ih =>
    rcases ih with ⟨r, hr⟩
    have hvalid := valid_run valid_empty p
    have hbinds := (empty.run p).binds_step s
    have hold (j : Nat) (hj : (empty.run p).handles[j]? = some h) :
        Relation.EqvGen (Clones (p ++ [s])) r j :=
      Relation.EqvGen.mono (fun _ _ (hclone : Clones p _ _) => hclone.snoc s) _ _ (hr j hj)
    rw [run_snoc]
    generalize hw : empty.run p = w at hvalid hbinds hold
    generalize w.step s = w' at hbinds
    cases hbinds with
    | fresh size =>
      by_cases heq : h = w.heap.next
      · refine ⟨w.handles.length, fun j hj => ?_⟩
        rcases getElem?_bind_cases hj with hj | ⟨rfl, -⟩
        · have hlt := hvalid.index_lt hj
          rw [heq] at hlt
          exact absurd hlt (Nat.lt_irrefl _)
        · exact .refl _
      · refine ⟨r, fun j hj => ?_⟩
        rcases getElem?_bind_cases hj with hj | ⟨-, hmade⟩
        · exact hold j hj
        · exact absurd hmade heq
    | copied bound =>
      rename_i i x
      refine ⟨r, fun j hj => ?_⟩
      rcases getElem?_bind_cases hj with hj | ⟨rfl, rfl⟩
      · exact hold j hj
      · refine (hold i bound).trans _ _ _ (.rel _ _ ⟨p, [], rfl, ?_, ?_⟩)
        · rw [hw]
          exact (List.getElem?_eq_some_iff.1 bound).1
        · rw [hw]
    | none size => exact ⟨r, hold⟩

/-- A variable that was made by copying another one is a handle of the same cell. -/
theorem Clones.getElem?_eq (h : Clones p i j) :
    (empty.run p).handles[i]? = (empty.run p).handles[j]? := by
  rcases h with ⟨before, after, rfl, hi, rfl⟩
  have hbound : (empty.run before).handles[i]? = some (empty.run before).handles[i] :=
    List.getElem?_eq_getElem hi
  have hstep : (empty.run before).step (.clone i) =
      (empty.run before).bind ((empty.run before).handles[i], (empty.run before).heap) := by
    simp only [step, hbound]
  have hrun : empty.run (before ++ .clone i :: after) =
      ((empty.run before).step (.clone i)).run after := run_append _ _ _
  rw [hrun, hstep, getElem?_run (getElem?_bind hbound _) after,
    getElem?_run (getElem?_bind_length _ _) after]

/-- Two variables are handles of one cell exactly if they are connected by copying. -/
theorem sameCell_iff (hi : i < (empty.run p).handles.length) :
    (empty.run p).SameCell i j ↔ Relation.EqvGen (Clones p) i j := by
  constructor
  · rintro ⟨h, hfirst, hsecond⟩
    rcases exists_original p h with ⟨r, hr⟩
    exact ((hr i hfirst).symm).trans _ _ _ (hr j hsecond)
  · intro hconnected
    have heq : (empty.run p).handles[i]? = (empty.run p).handles[j]? := by
      clear hi
      induction hconnected with
      | rel i j hclone => exact hclone.getElem?_eq
      | refl i => rfl
      | symm i j _ ih => exact ih.symm
      | trans i j k _ _ ih ih' => exact ih.trans ih'
    exact ⟨_, List.getElem?_eq_getElem hi, heq ▸ List.getElem?_eq_getElem hi⟩

/-! ## Updates that are refused -/

/-- An update answers what the metric would answer. -/
theorem answer_eq (hi : w.shown i = some m) (u : Value) :
    w.answer i u = some ((m.update u).map Metric.value) := by
  rcases shown_eq_some_iff.1 hi with ⟨h, hbound, rfl⟩
  rw [answer, hbound, Option.map_some, Heap.update]
  cases (w.heap.get h).update u with
  | ok n => rfl
  | error e => rfl

/-- An update that is refused changes nothing. -/
theorem step_update_of_refused {u : Value} {e : Failure} (hrefused : w.answer i u = some (.error e)) :
    w.step (.change i (.update u)) = w := by
  rcases Option.map_eq_some_iff.1 hrefused with ⟨h, hbound, herror⟩
  have hsame : w.heap.change h (.update u) = w.heap := by
    rw [Heap.change, Heap.update_snd]
    cases hupdate : (w.heap.get h).update u with
    | ok n =>
      rw [Heap.update, hupdate] at herror
      cases herror
    | error e => rfl
  simp only [step, hbound, hsame]

/-- An update that is taken answers with what is shown from then on. -/
theorem shown_update_of_accepted (hvalid : w.Valid) {u v : Value} (hi : w.shown i = some m)
    (haccepted : w.answer i u = some (.ok v)) :
    (w.step (.change i (.update u))).shown i = some ⟨m.name, v⟩ := by
  rw [answer_eq hi] at haccepted
  rcases shown_eq_some_iff.1 hi with ⟨h, hbound, -⟩
  rw [shown_step hvalid hi]
  simp only [if_pos (show w.SameCell i i from ⟨h, hbound, hbound⟩), Metric.change]
  cases hupdate : m.update u with
  | ok n =>
    rw [hupdate] at haccepted
    have hname : n.name = m.name := congrArg Key.name (Metric.key_update hupdate)
    rw [← hname]
    cases haccepted
    rfl
  | error e =>
    rw [hupdate] at haccepted
    cases haccepted

end

/-! ## Every program -/

/-- What is known of the variables after a program, and in the course of any statements
that follow it. -/
structure Governed (p : List Statement) (w : Workspace) : Prop where
  /-- Copying a handle is the only way to come by another one of the same cell. -/
  sameCell : ∀ i j, i < w.handles.length →
    (w.SameCell i j ↔ Relation.EqvGen (Clones p) i j)
  /-- A new variable shows what it was made from. -/
  made : ∀ m, (w.step (.new m)).shown w.handles.length = some m
  parsed : ∀ kind name raw,
    match Metric.parse kind name raw with
    | .ok m => (w.step (.parse kind name raw)).shown w.handles.length = some m
    | .error _ => w.step (.parse kind name raw) = w
  cloned : ∀ i, i < w.handles.length → (w.step (.clone i)).shown w.handles.length = w.shown i
  detached : ∀ i, i < w.handles.length → (w.step (.detach i)).shown w.handles.length = w.shown i
  /-- A change is seen through the variables of its cell and through no other. -/
  changed : ∀ i c j m, w.shown j = some m →
    (w.step (.change i c)).shown j = some (if w.SameCell j i then m.change c else m)
  /-- No other statement is seen through a variable that is there already. -/
  unchanged : ∀ s j m, (∀ i c, s ≠ .change i c) → w.shown j = some m →
    (w.step s).shown j = some m
  /-- Names and kinds stay. -/
  key : ∀ q j m, w.shown j = some m → ((w.run q).shown j).map Metric.key = some m.key
  /-- An update is refused if it is not finite or not of the kind of the cell. -/
  answered : ∀ i u e m, w.shown i = some m →
    (w.answer i u = some (.error e) ↔
      u.isFinite = false ∧ e = .unreadable Kind.gauge.name u.canonical ∨
      u.isFinite = true ∧ u.kind ≠ m.kind ∧ e = .kindMismatch m.name m.kind.name u.kind.name)
  refused : ∀ i u e, w.answer i u = some (.error e) → w.step (.change i (.update u)) = w
  accepted : ∀ i u v m, w.shown i = some m → w.answer i u = some (.ok v) →
    (w.step (.change i (.update u))).shown i = some ⟨m.name, v⟩
  /-- A reading that is finite stays finite, and is the one that was taken last. -/
  reading : ∀ q j name x, w.shown j = some ⟨name, .reading x⟩ →
    (w.run q).shown j = some ⟨name, .reading (Change.lastReading x (w.history j q))⟩ ∧
    (x.isFinite = true → (Change.lastReading x (w.history j q)).isFinite = true)
  /-- A total is reckoned step by step.  It stops at the ends of the range, and is exact if
  no step goes beyond them. -/
  total : ∀ q j name n, w.shown j = some ⟨name, .total n⟩ →
    ∃ n' : Count, (w.run q).shown j = some ⟨name, .total n'⟩ ∧
      n'.val = (w.history j q).foldl (Change.total Change.saturate) n.val ∧
      ((∀ k, Count.least ≤ ((w.history j q).take k).foldl (Change.total id) n.val ∧
          ((w.history j q).take k).foldl (Change.total id) n.val ≤ Count.greatest) →
        n'.val = (w.history j q).foldl (Change.total id) n.val)

/-- Every program is governed by these rules. -/
theorem governed (p : List Statement) : Governed p (empty.run p) := by
  have hvalid := valid_run valid_empty p
  generalize hw : empty.run p = w at hvalid
  refine
    { sameCell := ?sameCell, made := w.shown_bind_alloc_length, parsed := ?parsed,
      cloned := ?cloned, detached := ?detached, changed := ?changed, unchanged := ?unchanged,
      key := ?key, answered := ?answered, refused := fun _ _ _ => step_update_of_refused,
      accepted := fun _ _ _ _ => shown_update_of_accepted hvalid, reading := ?reading,
      total := ?total }
  case sameCell =>
    intro i j hi
    rw [← hw] at hi ⊢
    exact sameCell_iff hi
  case parsed =>
    intro kind name raw
    simp only [step]
    cases Metric.parse kind name raw with
    | ok m => exact w.shown_bind_alloc_length m
    | error e => rfl
  case cloned =>
    intro i hi
    have hbound : w.handles[i]? = some w.handles[i] := List.getElem?_eq_getElem hi
    simp only [step, shown, hbound, getElem?_bind_length]
    rfl
  case detached =>
    intro i hi
    have hbound : w.handles[i]? = some w.handles[i] := List.getElem?_eq_getElem hi
    simp only [step, hbound]
    exact (w.shown_bind_alloc_length _).trans (shown_eq_some_iff.2 ⟨_, hbound, rfl⟩).symm
  case changed => exact fun i c j m hj => shown_step hvalid hj (.change i c)
  case unchanged =>
    intro s j m hs hj
    rw [shown_step hvalid hj s]
    cases s with
    | change i c => exact absurd rfl (hs i c)
    | new n => rfl
    | parse kind name raw => rfl
    | clone i => rfl
    | detach i => rfl
  case key =>
    intro q j m hj
    rw [shown_run hvalid hj q, Option.map_some, key_foldl_change]
  case answered =>
    intro i u e m hi
    rw [answer_eq hi, Option.some.injEq]
    exact Metric.map_update_eq_error_iff
  case reading =>
    intro q j name x hj
    refine ⟨?_, fun hx => Change.isFinite_lastReading hx _⟩
    rw [shown_run hvalid hj q, Metric.foldl_change_reading]
  case total =>
    intro q j name n hj
    rcases Metric.foldl_change_total name n (w.history j q) with ⟨n', hfold, hn'⟩
    refine ⟨n', ?_, hn', fun hexact => ?_⟩
    · rw [shown_run hvalid hj q, hfold]
    · rw [hn', Change.foldl_total_of_exact hexact]

end Workspace

end MetricRelay
