import MetricRelay.Proofs.Number.Rounding

/-!
# The shortest digits round back

Whatever grid the search for the fewest digits stops at, and whichever way a tie
goes, the point that it takes lies in the rounding interval of its double.  So
the digits stand for a number that is rounded to the double.

Main results:

- `Window.admits_nearest?`: a point that is taken on a grid lies in the window.
- `decimalIn_shortest`: the shortest digits lie in the rounding interval.
-/

namespace MetricRelay

open Binary64 (units InInterval DecimalIn grainsPerUnit)

namespace Window

/-- A point that is taken on a grid lies in the window. -/
theorem admits_nearest? {w : Window} {tie : Tie} {step digits : Nat}
    (h : w.nearest? tie step = some digits) : w.admits (digits * step) = true := by
  unfold nearest? at h
  simp only at h
  split at h
  · rename_i hbelow habove
    cases h
    exact hbelow
  · rename_i hbelow habove
    cases h
    exact habove
  · cases h
  · rename_i hbelow habove
    have hboth : digits = w.value / step ∨ digits = w.value / step + 1 := by
      split at h
      · exact Or.inl (Option.some.inj h).symm
      · split at h
        · exact Or.inr (Option.some.inj h).symm
        · cases tie with
          | up => exact Or.inr (Option.some.inj h).symm
          | even =>
            have heq := Option.some.inj h
            omega
    rcases hboth with rfl | rfl
    · exact hbelow
    · exact habove

theorem low_ofRank (rank : Nat) :
    (ofRank rank).low = (units (rank - 1) + units rank) * grainsPerUnit := rfl

theorem value_ofRank (rank : Nat) :
    (ofRank rank).value = 2 * units rank * grainsPerUnit := rfl

theorem high_ofRank (rank : Nat) :
    (ofRank rank).high = (units rank + units (rank + 1)) * grainsPerUnit := rfl

/-- A number of half grains in the window of a rank lies in its rounding
interval. -/
theorem inInterval_of_admits {rank n : Nat} (h : (ofRank rank).admits (2 * n) = true) :
    InInterval rank n grainsPerUnit := by
  unfold admits at h
  rw [low_ofRank, high_ofRank] at h
  have hclosed : (ofRank rank).closed = (rank % 2 == 0) := rfl
  rw [hclosed] at h
  split at h
  · rename_i heven
    simp only [beq_iff_eq] at heven
    simp only [Bool.and_eq_true, decide_eq_true_eq] at h
    exact ⟨h.1, h.2, fun hodd => by omega⟩
  · simp only [Bool.and_eq_true, decide_eq_true_eq] at h
    exact ⟨h.1.le, h.2.le, fun _ => h⟩

/-- The number of a rank lies in its own window. -/
theorem inInterval_value {rank : Nat} (h : 0 < rank) :
    InInterval rank (units rank * grainsPerUnit) grainsPerUnit := by
  obtain ⟨r, rfl⟩ : ∃ r, rank = r + 1 := ⟨rank - 1, by omega⟩
  have hpred := Binary64.units_lt_succ r
  have hsucc := Binary64.units_lt_succ (r + 1)
  have hgrains := Binary64.grainsPerUnit_pos
  have hlow : (units (r + 1 - 1) + units (r + 1)) * grainsPerUnit <
      2 * (units (r + 1) * grainsPerUnit) := by
    rw [← Nat.mul_assoc, Nat.add_sub_cancel]
    exact Nat.mul_lt_mul_of_pos_right (by omega) hgrains
  have hhigh : 2 * (units (r + 1) * grainsPerUnit) <
      (units (r + 1) + units (r + 1 + 1)) * grainsPerUnit := by
    rw [← Nat.mul_assoc]
    exact Nat.mul_lt_mul_of_pos_right (by omega) hgrains
  exact ⟨hlow.le, hhigh.le, fun _ => ⟨hlow, hhigh⟩⟩

/-- On whatever grid the search stops, its point lies in the rounding interval. -/
theorem decimalIn_coarsest {rank : Nat} (hrank : 0 < rank) (tie : Tie) (level : Nat) :
    DecimalIn rank ((ofRank rank).coarsest tie level).1 ((ofRank rank).coarsest tie level).2 := by
  induction level with
  | zero =>
    have hhalf : (ofRank rank).value / 2 = units rank * grainsPerUnit := by
      rw [value_ofRank, Nat.mul_assoc, Nat.mul_div_cancel_left _ (by decide)]
    unfold coarsest DecimalIn
    simp only [hhalf, pow_zero, Nat.mul_one]
    exact inInterval_value hrank
  | succ level ih =>
    unfold coarsest
    split
    · rename_i digits hdigits
      have hadmits := admits_nearest? hdigits
      rw [Nat.pow_eq, Nat.mul_left_comm] at hadmits
      exact inInterval_of_admits hadmits
    · exact ih

end Window

/-- The shortest digits are those of some grid. -/
theorem shortest_eq (tie : Tie) (rank : Nat) :
    ∃ level, shortest tie rank = (((Window.ofRank rank).coarsest tie level).1,
      (((Window.ofRank rank).coarsest tie level).2 : Int) - 1074) :=
  ⟨_, rfl⟩

/-- The shortest digits of a double lie in its rounding interval. -/
theorem decimalIn_shortest {rank : Nat} (hrank : 0 < rank) (tie : Tie) :
    ∃ scale : Nat, (shortest tie rank).2 = (scale : Int) - 1074 ∧
      DecimalIn rank (shortest tie rank).1 scale := by
  rcases shortest_eq tie rank with ⟨level, heq⟩
  rw [heq]
  exact ⟨_, rfl, Window.decimalIn_coarsest hrank tie level⟩

end MetricRelay
