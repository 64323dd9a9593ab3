/-!
# Splitting a text

A text falls into parts at every occurrence of a separator: one part more than there are
separators, each of them possibly empty.  A text may be given by its characters or by its bytes.

Main definitions:

- `splitAt`: the parts of a text.
- `cutAt`: the part before the first separator, and the rest.
- `holds`: whether a text has another one in it.

Main results:

- `splitAt_ne_nil`: there is at least one part.
- `splitAt_of_not_mem`, `splitAt_append_cons`: a text without separators is one part.
- `splitAt_append`: a text without separators goes on with the last part.
-/

namespace MetricRelay.Text

variable {α : Type} [DecidableEq α]

/-- The parts of a text between the occurrences of a separator. -/
def splitAt (separator : α) : List α → List (List α)
  | [] => [[]]
  | c :: r =>
    if c = separator then [] :: splitAt separator r
    else
      match splitAt separator r with
      | [] => [[c]]
      | part :: parts => (c :: part) :: parts

/-- There is at least one part. -/
theorem splitAt_ne_nil (separator : α) (s : List α) : splitAt separator s ≠ [] := by
  cases s with
  | nil => simp [splitAt]
  | cons c r =>
    unfold splitAt
    split
    · simp
    · split <;> simp

/-- A text without separators is one part. -/
theorem splitAt_of_not_mem {separator : α} {t : List α} (ht : separator ∉ t) :
    splitAt separator t = [t] := by
  induction t with
  | nil => rfl
  | cons c r ih =>
    rw [List.mem_cons, not_or] at ht
    rw [splitAt, if_neg (Ne.symm ht.1), ih ht.2]

/-- A text without separators is the first part of what goes on with one. -/
theorem splitAt_append_cons {separator : α} {t : List α} (ht : separator ∉ t) (s : List α) :
    splitAt separator (t ++ separator :: s) = t :: splitAt separator s := by
  induction t with
  | nil => rw [List.nil_append, splitAt, if_pos rfl]
  | cons c r ih =>
    rw [List.mem_cons, not_or] at ht
    rw [List.cons_append, splitAt, if_neg (Ne.symm ht.1), ih ht.2]

/-- A text without separators goes on with the last part of another. -/
theorem splitAt_append {separator : α} {s t last : List α} {parts : List (List α)}
    (ht : separator ∉ t) (h : splitAt separator s = parts ++ [last]) :
    splitAt separator (s ++ t) = parts ++ [last ++ t] := by
  induction s generalizing parts last with
  | nil =>
    have hparts : parts = [] ∧ last = [] := by
      rw [splitAt] at h
      cases parts with
      | nil => exact ⟨rfl, (List.cons.inj h).1.symm⟩
      | cons p ps => simp at h
    obtain ⟨rfl, rfl⟩ := hparts
    rw [List.nil_append, List.nil_append]
    exact splitAt_of_not_mem ht
  | cons c r ih =>
    rw [List.cons_append, splitAt]
    rw [splitAt] at h
    by_cases hc : c = separator
    · rw [if_pos hc] at h ⊢
      cases parts with
      | nil => exact absurd (List.cons.inj h).2 (splitAt_ne_nil separator r)
      | cons p ps =>
        obtain ⟨rfl, hrest⟩ := List.cons.inj h
        rw [ih hrest]
        rfl
    · rw [if_neg hc] at h ⊢
      cases hr : splitAt separator r with
      | nil => exact absurd hr (splitAt_ne_nil separator r)
      | cons q qs =>
        rw [hr] at h
        simp only at h
        cases parts with
        | nil =>
          obtain ⟨rfl, rfl⟩ := List.cons.inj h
          have hrest := @ih q [] hr
          rw [hrest]
          rfl
        | cons p ps =>
          obtain ⟨rfl, hqs⟩ := List.cons.inj h
          have hrest := @ih last (q :: ps) (by rw [hr, hqs]; rfl)
          rw [hrest]
          rfl

/-- The part of a text before the first occurrence of a separator, and what follows it if it
occurs. -/
def cutAt (separator : α) : List α → List α × Option (List α)
  | [] => ([], none)
  | c :: r =>
    if c = separator then ([], some r)
    else
      let (before, after) := cutAt separator r
      (c :: before, after)

/-- Whether a text has another one in it. -/
def holds (part : List α) : List α → Bool
  | [] => part.isEmpty
  | c :: r => part.isPrefixOf (c :: r) || holds part r

end MetricRelay.Text
