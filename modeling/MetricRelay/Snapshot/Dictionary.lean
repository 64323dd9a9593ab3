/-!
# Dictionaries

A dictionary gives values to texts and lists them in the order of the texts, which is the order
of their characters and so of their bytes.  The order is part of the type, so that two
dictionaries with the same values are equal.

Main definitions:

- `Dictionary`: entries in strictly rising order of their keys.
- `find?`, `insert`, `empty`.

Main results:

- `find?_empty` and `find?_insert`: what a look-up finds after each operation.
- `ext_find?`: look-ups tell dictionaries apart.
-/

namespace MetricRelay

/-- Values of texts, in the order of the texts. -/
structure Dictionary (β : Type) where
  entries : List (String × β)
  sorted : entries.Pairwise fun x y => x.1 < y.1

namespace Dictionary

variable {β : Type}

/-- No entries. -/
def empty : Dictionary β := ⟨[], .nil⟩

instance : Inhabited (Dictionary β) := ⟨empty⟩

/-- The value of a key in a list of entries. -/
def findIn? (key : String) : List (String × β) → Option β
  | [] => none
  | (k, v) :: r => if k = key then some v else findIn? key r

/-- The value of a key. -/
def find? (d : Dictionary β) (key : String) : Option β := findIn? key d.entries

/-- Give a key a value in a sorted list of entries. -/
def insertIn (key : String) (value : β) : List (String × β) → List (String × β)
  | [] => [(key, value)]
  | (k, v) :: r =>
    if key < k then (key, value) :: (k, v) :: r
    else if key = k then (key, value) :: r
    else (k, v) :: insertIn key value r

/-- An entry after an insertion is the new one or an older one. -/
theorem mem_insertIn {key : String} {value : β} {l : List (String × β)} {x : String × β}
    (h : x ∈ insertIn key value l) : x = (key, value) ∨ x ∈ l := by
  induction l with
  | nil => simpa [insertIn] using h
  | cons y r ih =>
    unfold insertIn at h
    grind

/-- An insertion keeps the order of the keys. -/
theorem sorted_insertIn {key : String} {value : β} {l : List (String × β)}
    (h : l.Pairwise fun x y => x.1 < y.1) :
    (insertIn key value l).Pairwise fun x y => x.1 < y.1 := by
  induction l with
  | nil => simp [insertIn]
  | cons y r ih =>
    rw [List.pairwise_cons] at h
    have hr := ih h.2
    unfold insertIn
    split
    · rename_i hlt
      refine List.pairwise_cons.2 ⟨fun z hz => ?_, List.pairwise_cons.2 h⟩
      rcases List.mem_cons.1 hz with rfl | hz
      · exact hlt
      · exact String.lt_trans hlt (h.1 z hz)
    · split
      · rename_i heq
        exact List.pairwise_cons.2 ⟨fun z hz => heq ▸ h.1 z hz, h.2⟩
      · rename_i hlt hne
        refine List.pairwise_cons.2 ⟨fun z hz => ?_, hr⟩
        rcases mem_insertIn hz with rfl | hz
        · grind
        · exact h.1 z hz

/-- Give a key a value, replacing the one that it has. -/
def insert (d : Dictionary β) (key : String) (value : β) : Dictionary β :=
  ⟨insertIn key value d.entries, sorted_insertIn d.sorted⟩

/-- The new value is found under its key, and under other keys what was there before. -/
theorem findIn?_insertIn (key key' : String) (value : β) (l : List (String × β)) :
    findIn? key' (insertIn key value l) = if key = key' then some value else findIn? key' l := by
  induction l with
  | nil => simp [insertIn, findIn?]
  | cons y r ih =>
    unfold insertIn
    split
    · simp [findIn?]
    · split
      · rename_i heq
        subst heq
        simp only [findIn?]
        split <;> rfl
      · simp only [findIn?, ih]
        grind

/-- Nothing is found under a key that no entry has. -/
theorem findIn?_eq_none {key : String} {l : List (String × β)} (h : ∀ x ∈ l, x.1 ≠ key) :
    findIn? key l = none := by
  induction l with
  | nil => rfl
  | cons y r ih =>
    simp only [findIn?]
    rw [if_neg (h y List.mem_cons_self)]
    exact ih fun x hx => h x (List.mem_cons_of_mem _ hx)

@[simp]
theorem find?_empty (key : String) : (empty : Dictionary β).find? key = none := rfl

/-- After an insertion its key has the new value, and every other key what it had. -/
@[simp]
theorem find?_insert (d : Dictionary β) (key key' : String) (value : β) :
    (d.insert key value).find? key' = if key = key' then some value else d.find? key' :=
  findIn?_insertIn key key' value d.entries

/-- Entries in order are told apart by what is found under the keys. -/
theorem entries_eq_of_findIn? {l l' : List (String × β)}
    (hl : l.Pairwise fun x y => x.1 < y.1) (hl' : l'.Pairwise fun x y => x.1 < y.1)
    (h : ∀ key, findIn? key l = findIn? key l') : l = l' := by
  have out : ∀ {x : String × β} {r : List (String × β)} {key : String},
      (x :: r).Pairwise (fun x y => x.1 < y.1) → ¬ x.1 < key →
      findIn? key r = none := by
    intro x r key hp hlt
    refine findIn?_eq_none fun y hy hkey => hlt ?_
    rw [← hkey]
    exact (List.pairwise_cons.1 hp).1 y hy
  induction l generalizing l' with
  | nil =>
    cases l' with
    | nil => rfl
    | cons y r => have := h y.1; simp [findIn?] at this
  | cons x r ih =>
    cases l' with
    | nil => have := h x.1; simp [findIn?] at this
    | cons y r' =>
      have hx := h x.1
      have hy := h y.1
      simp only [findIn?, if_true] at hx hy
      have hkey : x.1 = y.1 := by
        rcases Classical.em (x.1 < y.1) with hlt | hlt
        · rw [if_neg (by grind), out hl' (by grind)] at hx
          cases hx
        · rcases Classical.em (y.1 < x.1) with hgt | hgt
          · rw [if_neg (by grind), out hl (by grind)] at hy
            cases hy
          · grind
      have hval : x.2 = y.2 := by
        rw [if_pos hkey.symm] at hx
        exact Option.some.inj hx
      have htail : r = r' := by
        refine ih (List.pairwise_cons.1 hl).2 (List.pairwise_cons.1 hl').2 fun key => ?_
        by_cases e : x.1 = key
        · rw [← e, out hl (by grind), hkey, out hl' (by grind)]
        · have := h key
          simpa only [findIn?, if_neg e, if_neg (hkey ▸ e)] using this
      rw [htail, Prod.ext hkey hval]

/-- Dictionaries that find the same values are the same. -/
theorem ext_find? {d e : Dictionary β} (h : ∀ key, d.find? key = e.find? key) : d = e := by
  cases d with
  | mk l hl =>
    cases e with
    | mk l' hl' =>
      have : l = l' := entries_eq_of_findIn? hl hl' h
      subst this
      rfl

end Dictionary

end MetricRelay
