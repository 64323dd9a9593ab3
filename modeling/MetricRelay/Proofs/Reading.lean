import Mathlib.Data.List.Forall2
import MetricRelay.Failure

/-!
# Reading lists

A list is read item by item, and the first item that cannot be read decides.

Main results:

- `mapM_cons_eq_ok_iff`: how a list with a first item is read.
- `forall₂_of_mapM`: each item was read to what stands at its place.
- `exists_of_mapM_eq_error`: the first item that could not be read.
-/

namespace MetricRelay

variable {α β : Type} {f : α → Outcome β} {a : α} {l : List α} {b : β} {bs : List β}

/-- A list is read if its first item is, and the others are. -/
theorem mapM_cons_eq_ok_iff :
    (a :: l).mapM f = .ok bs ↔ ∃ b bs', f a = .ok b ∧ l.mapM f = .ok bs' ∧ bs = b :: bs' := by
  rw [List.mapM_cons]
  cases ha : f a with
  | error e => simp [bind, Except.bind]
  | ok b =>
    cases hl : l.mapM f with
    | error e => simp [bind, Except.bind]
    | ok bs' => simp [bind, Except.bind, pure, Except.pure, eq_comm]

/-- Nothing is read as nothing. -/
theorem mapM_nil_eq_ok_iff : ([] : List α).mapM f = .ok bs ↔ bs = [] := by
  rw [List.mapM_nil]
  simp [pure, Except.pure, eq_comm]

/-- A list whose items can be read can be read. -/
theorem exists_mapM_eq_ok (h : ∀ a ∈ l, ∃ b, f a = .ok b) : ∃ bs, l.mapM f = .ok bs := by
  induction l with
  | nil => exact ⟨[], mapM_nil_eq_ok_iff.2 rfl⟩
  | cons a l ih =>
    rcases h a List.mem_cons_self with ⟨b, hb⟩
    rcases ih fun x hx => h x (List.mem_cons_of_mem _ hx) with ⟨bs, hbs⟩
    exact ⟨b :: bs, mapM_cons_eq_ok_iff.2 ⟨b, bs, hb, hbs, rfl⟩⟩

/-- A list is read if each of its items is. -/
theorem forall₂_of_mapM (h : l.mapM f = .ok bs) : List.Forall₂ (fun a b => f a = .ok b) l bs := by
  induction l generalizing bs with
  | nil =>
    rw [mapM_nil_eq_ok_iff.1 h]
    exact .nil
  | cons a l ih =>
    rcases mapM_cons_eq_ok_iff.1 h with ⟨b, bs', hb, hbs, rfl⟩
    exact .cons hb (ih hbs)

/-- What was read from a list was read from one of its items. -/
theorem exists_of_mem_mapM (h : l.mapM f = .ok bs) (hb : b ∈ bs) : ∃ a ∈ l, f a = .ok b := by
  have hread := forall₂_of_mapM h
  clear h
  induction hread with
  | nil => cases hb
  | @cons a x l xs ha _ ih =>
    rcases List.mem_cons.1 hb with rfl | hb
    · exact ⟨a, List.mem_cons_self, ha⟩
    · rcases ih hb with ⟨a', ha', hb'⟩
      exact ⟨a', List.mem_cons_of_mem _ ha', hb'⟩

/-- What holds of whatever is read holds of all that was read from a list. -/
theorem forall_of_mapM {P : β → Prop} (hf : ∀ a b, f a = .ok b → P b) (h : l.mapM f = .ok bs) :
    ∀ b ∈ bs, P b := by
  intro b hb
  rcases exists_of_mem_mapM h hb with ⟨a, -, hread⟩
  exact hf a b hread

/-- Each item of a list that was read can be read. -/
theorem exists_mem_of_mapM (h : l.mapM f = .ok bs) (ha : a ∈ l) : ∃ b ∈ bs, f a = .ok b := by
  have hread := forall₂_of_mapM h
  clear h
  induction hread with
  | nil => cases ha
  | @cons a' x l xs hx _ ih =>
    rcases List.mem_cons.1 ha with rfl | ha
    · exact ⟨x, List.mem_cons_self, hx⟩
    · rcases ih ha with ⟨b, hb, hread⟩
      exact ⟨b, List.mem_cons_of_mem _ hb, hread⟩

/-- What was read from different items is different, if reading tells them
apart. -/
theorem pairwise_of_mapM {S : α → α → Prop} {T : β → β → Prop}
    (hf : ∀ a a' b b', S a a' → f a = .ok b → f a' = .ok b' → T b b') (hl : l.Pairwise S)
    (h : l.mapM f = .ok bs) : bs.Pairwise T := by
  induction l generalizing bs with
  | nil =>
    rw [mapM_nil_eq_ok_iff.1 h]
    exact .nil
  | cons a l ih =>
    rcases List.pairwise_cons.1 hl with ⟨ha, hrest⟩
    rcases mapM_cons_eq_ok_iff.1 h with ⟨b, bs', hb, hbs, rfl⟩
    refine List.pairwise_cons.2 ⟨fun b' hb' => ?_, ih hrest hbs⟩
    rcases exists_of_mem_mapM hbs hb' with ⟨a', ha', hread⟩
    exact hf a a' b b' (ha a' ha') hb hread

/-- The start of a list is read to the start of what it is read to. -/
theorem mapM_take (h : l.mapM f = .ok bs) (k : Nat) : (l.take k).mapM f = .ok (bs.take k) := by
  induction l generalizing bs k with
  | nil =>
    rw [mapM_nil_eq_ok_iff.1 h, List.take_nil, List.take_nil]
    exact mapM_nil_eq_ok_iff.2 rfl
  | cons a l ih =>
    rcases mapM_cons_eq_ok_iff.1 h with ⟨b, bs', hb, hbs, rfl⟩
    cases k with
    | zero => exact mapM_nil_eq_ok_iff.2 rfl
    | succ k =>
      rw [List.take_succ_cons, List.take_succ_cons]
      exact mapM_cons_eq_ok_iff.2 ⟨b, bs'.take k, hb, ih hbs k, rfl⟩

/-- A list that cannot be read has a first item that cannot. -/
theorem exists_of_mapM_eq_error {e : Failure} (h : l.mapM f = .error e) :
    ∃ i, ∃ hi : i < l.length, (∀ x ∈ l.take i, ∃ b, f x = .ok b) ∧ f l[i] = .error e := by
  induction l with
  | nil => cases h
  | cons a l ih =>
    rw [List.mapM_cons] at h
    cases ha : f a with
    | error e' =>
      simp only [ha, bind, Except.bind, Except.error.injEq] at h
      subst h
      refine ⟨0, Nat.zero_lt_succ _, ?_, ha⟩
      intro x hx
      cases hx
    | ok b =>
      cases hl : l.mapM f with
      | ok bs => simp [ha, hl, bind, Except.bind, pure, Except.pure] at h
      | error e' =>
        simp only [ha, hl, bind, Except.bind, Except.error.injEq] at h
        subst h
        rcases ih hl with ⟨i, hi, hbefore, hfail⟩
        refine ⟨i + 1, Nat.succ_lt_succ hi, ?_, hfail⟩
        intro x hx
        rw [List.take_succ_cons, List.mem_cons] at hx
        rcases hx with rfl | hx
        · exact ⟨b, ha⟩
        · exact hbefore x hx

end MetricRelay
