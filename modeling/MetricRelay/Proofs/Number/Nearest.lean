import Mathlib.Algebra.Order.Field.Rat
import Mathlib.Algebra.Order.Ring.Abs
import Mathlib.Order.Fin.Basic
import MetricRelay.Proofs.Number.Extremes

/-!
# The double that is nearest to a number

Which double is nearest is a question of distances between rational numbers, and says
nothing of how it is found.  Of two doubles that are as near as each other the one of
even rank is taken, so there is only one answer; and unless the number is too large,
rounding finds it.

Main definitions:

- `size`: the number that the finite doubles of a rank are, but for their sign.
- `IsNearest`: the rank that is nearest to a number.

Main results:

- `IsNearest.unique`: there is one nearest rank at most.
- `inInterval_nearestRank`: a ratio lies in the rounding interval of its rank.
- `ofDecimal_eq_iff_isNearest`: a decimal number is rounded to the nearest double.
-/

namespace MetricRelay.Binary64

/-- The size of the finite doubles of a rank. -/
def size (rank : Nat) : ℚ := units rank / unitsPerOne

/-- A rank is nearest to a number: no other is nearer, and another is as near only if
this one is even. -/
structure IsNearest (q : ℚ) (rank : Fin rankCount) : Prop where
  le : ∀ other : Fin rankCount, |size rank - q| ≤ |size other - q|
  even : ∀ other : Fin rankCount, other ≠ rank → |size rank - q| = |size other - q| →
    rank.val % 2 = 0

/-! ## Distances -/

/-- A higher rank is a greater number of units. -/
theorem units_strictMono : StrictMono units := strictMono_nat_of_lt_succ units_lt_succ

/-- A higher rank is a greater double. -/
theorem size_strictMono : StrictMono size := by
  intro r s h
  have hunits : (units r : ℚ) < units s := Nat.cast_lt.2 (units_strictMono h)
  exact div_lt_div_of_pos_right hunits (Nat.cast_pos.2 unitsPerOne_pos)

/-- Which of two numbers is nearer to a third depends on which side of their middle it
lies. -/
theorem abs_sub_le_abs_sub_iff (a b q : ℚ) :
    |a - q| ≤ |b - q| ↔ (a - b) * (a + b - 2 * q) ≤ 0 := by
  have hsquares : (a - q) ^ 2 - (b - q) ^ 2 = (a - b) * (a + b - 2 * q) := by ring
  rw [← sq_le_sq, ← sub_nonpos, hsquares]

/-- Two numbers are as far from a third one if that is in the middle. -/
theorem abs_sub_eq_abs_sub_iff {a b : ℚ} (hne : a ≠ b) (q : ℚ) :
    |a - q| = |b - q| ↔ a + b = 2 * q := by
  have hsquares : (a - q) ^ 2 - (b - q) ^ 2 = (a - b) * (a + b - 2 * q) := by ring
  rw [← sq_eq_sq_iff_abs_eq_abs, ← sub_eq_zero, hsquares, mul_eq_zero,
    or_iff_right (sub_ne_zero.2 hne), sub_eq_zero]

section

variable {q : ℚ} {rank other : Fin rankCount}

/-- Between two even ranks there is one that is nearer than the one or the other. -/
theorem IsNearest.not_lt (h : IsNearest q rank) (h' : IsNearest q other) : ¬ rank < other := by
  intro hlt
  have hless : size rank < size other := size_strictMono hlt
  have htie : |size rank - q| = |size other - q| := le_antisymm (h.le other) (h'.le rank)
  have heven := h.even other hlt.ne' htie
  have heven' := h'.even rank hlt.ne htie.symm
  have hvals : rank.val < other.val := hlt
  have hroom : rank.val + 1 < other.val := by omega
  have hbelow := (abs_sub_le_abs_sub_iff _ _ q).1 (h.le ⟨rank.val + 1, by omega⟩)
  have habove := (abs_sub_le_abs_sub_iff _ _ q).1 (h'.le ⟨rank.val + 1, by omega⟩)
  have hfirst : size rank < size (rank.val + 1) := size_strictMono (Nat.lt_succ_self _)
  have hsecond : size (rank.val + 1) < size other := size_strictMono hroom
  simp only at hbelow habove
  have hlow : 0 ≤ size rank + size (rank.val + 1) - 2 * q := by nlinarith
  have hhigh : size other + size (rank.val + 1) - 2 * q ≤ 0 := by nlinarith
  linarith

/-- There is one nearest rank at most. -/
theorem IsNearest.unique (h : IsNearest q rank) (h' : IsNearest q other) : rank = other :=
  le_antisymm (le_of_not_gt (h'.not_lt h)) (le_of_not_gt (h.not_lt h'))

end

/-! ## Rounding intervals -/

section

variable {num den : Nat}

/-- Between which two ranks a ratio of units lies. -/
theorem exists_units_le_and_lt (num : Nat) (hden : 0 < den) :
    ∃ r, units r * den ≤ num ∧ num < units (r + 1) * den := by
  have hex : ∃ r, num < units r * den := by
    refine ⟨num + 1, ?_⟩
    calc
      num < num + 1 := Nat.lt_succ_self _
      _ ≤ units (num + 1) := units_strictMono.le_apply
      _ ≤ units (num + 1) * den := Nat.le_mul_of_pos_right _ hden
  have hfind := Nat.find_spec hex
  have hpos : Nat.find hex ≠ 0 := by
    intro hzero
    rw [hzero] at hfind
    exact absurd hfind (by simp [units, significand])
  obtain ⟨r, hr⟩ := Nat.exists_eq_succ_of_ne_zero hpos
  rw [hr] at hfind
  exact ⟨r, Nat.not_lt.1 (Nat.find_min hex (by omega)), hfind⟩

/-- Every ratio of units lies in the rounding interval of some rank: that of the double
below it, or of the next one. -/
theorem exists_inInterval (num : Nat) (hden : 0 < den) : ∃ rank, InInterval rank num den := by
  rcases exists_units_le_and_lt num hden with ⟨r, hbelow, habove⟩
  have hstep : units r * den < units (r + 1) * den :=
    Nat.mul_lt_mul_of_pos_right (units_lt_succ r) hden
  have hnext : units (r + 1) * den < units (r + 1 + 1) * den :=
    Nat.mul_lt_mul_of_pos_right (units_lt_succ (r + 1)) hden
  have hprev : units (r - 1) * den ≤ units r * den :=
    Nat.mul_le_mul_right _ (units_strictMono.monotone (Nat.sub_le r 1))
  have hprev' : r % 2 = 1 → units (r - 1) * den < units r * den := fun hodd =>
    Nat.mul_lt_mul_of_pos_right (units_strictMono (by omega)) hden
  -- Halfway between the two ranks the remainder decides, which leaves it to the even one.
  rcases Nat.lt_or_ge (2 * num) ((units r + units (r + 1)) * den + (r + 1) % 2) with hlow | hhigh
  · refine ⟨r, ?_, ?_, fun hodd => ⟨?_, ?_⟩⟩ <;> simp only [Nat.add_mul] at hlow ⊢ <;> omega
  · refine ⟨r + 1, ?_, ?_, fun hodd => ⟨?_, ?_⟩⟩ <;>
      simp only [Nat.add_mul, Nat.add_sub_cancel] at hhigh ⊢ <;> omega

/-- A ratio lies in the rounding interval of its rank. -/
theorem inInterval_nearestRank (num : Nat) (hden : 0 < den) :
    InInterval (nearestRank num den) (num * unitsPerOne) den := by
  rcases exists_inInterval (num * unitsPerOne) hden with ⟨rank, h⟩
  rcases Nat.eq_zero_or_pos rank with rfl | hpos
  · have hhigh : 2 * (num * unitsPerOne) ≤ (units 0 + units 1) * den := h.high
    have hunit : units 0 + units 1 = 1 := by decide
    rw [hunit, Nat.one_mul] at hhigh
    rw [nearestRank_eq_zero hden hhigh]
    exact h
  · rw [nearestRank_eq hden hpos h]
    exact h

/-- Units are compared with a ratio as numbers are. -/
theorem div_unitsPerOne_le_iff (a : Nat) (hden : 0 < den) :
    (a : ℚ) / unitsPerOne ≤ 2 * (num / den) ↔ a * den ≤ 2 * (num * unitsPerOne) := by
  have hone : (0 : ℚ) < unitsPerOne := Nat.cast_pos.2 unitsPerOne_pos
  have hden' : (0 : ℚ) < den := Nat.cast_pos.2 hden
  rw [← mul_div_assoc, div_le_div_iff₀ hone hden', ← Nat.cast_le (α := ℚ), mul_assoc]
  push_cast
  rfl

/-- A ratio is compared with units without division. -/
theorem le_div_unitsPerOne_iff (a : Nat) (hden : 0 < den) :
    2 * ((num : ℚ) / den) ≤ a / unitsPerOne ↔ 2 * (num * unitsPerOne) ≤ a * den := by
  have hone : (0 : ℚ) < unitsPerOne := Nat.cast_pos.2 unitsPerOne_pos
  have hden' : (0 : ℚ) < den := Nat.cast_pos.2 hden
  rw [← mul_div_assoc, div_le_div_iff₀ hden' hone, ← Nat.cast_le (α := ℚ), mul_assoc]
  push_cast
  rfl

theorem size_add (r s : Nat) : size r + size s = ((units r + units s : Nat) : ℚ) / unitsPerOne := by
  rw [size, size, ← add_div, Nat.cast_add]

/-- The ratios in the rounding interval of a rank are those that it is nearest to. -/
theorem InInterval.isNearest {rank : Fin rankCount} (hden : 0 < den)
    (h : InInterval rank (num * unitsPerOne) den) : IsNearest (num / den) rank := by
  have hlow : size (rank - 1) + size rank ≤ 2 * (num / den) := by
    rw [size_add]
    exact (div_unitsPerOne_le_iff _ hden).2 h.low
  have hhigh : 2 * ((num : ℚ) / den) ≤ size rank + size (rank + 1) := by
    rw [size_add]
    exact (le_div_unitsPerOne_iff _ hden).2 h.high
  have hodd : rank.val % 2 = 1 → size (rank - 1) + size rank < 2 * (num / den) ∧
      2 * ((num : ℚ) / den) < size rank + size (rank + 1) := by
    intro hodd
    rw [size_add, size_add, ← not_le, ← not_le, le_div_unitsPerOne_iff _ hden,
      div_unitsPerOne_le_iff _ hden, not_le, not_le]
    exact h.odd hodd
  generalize (num : ℚ) / den = q at hlow hhigh hodd
  -- The other ranks lie beyond the neighbours, or are the neighbours.
  have hside {other : Fin rankCount} (hne : other ≠ rank) :
      (size other ≤ size (rank - 1) ∧ size other < size rank) ∨
        (size (rank + 1) ≤ size other ∧ size rank < size other) := by
    rcases lt_or_gt_of_ne hne with hlt | hgt
    · have hvals : other.val < rank.val := hlt
      exact .inl ⟨size_strictMono.monotone (by omega), size_strictMono hlt⟩
    · have hvals : rank.val < other.val := hgt
      exact .inr ⟨size_strictMono.monotone hvals, size_strictMono hgt⟩
  refine ⟨fun other => ?_, fun other hne htie => ?_⟩
  · by_cases hne : other = rank
    · rw [hne]
    · rw [abs_sub_le_abs_sub_iff]
      rcases hside hne with ⟨hfar, hless⟩ | ⟨hfar, hless⟩
      · exact mul_nonpos_of_nonneg_of_nonpos (by linarith) (by linarith)
      · exact mul_nonpos_of_nonpos_of_nonneg (by linarith) (by linarith)
  · by_contra heven
    have hsides := hodd (by omega)
    rcases hside hne with ⟨hfar, hless⟩ | ⟨hfar, hless⟩
    · have hmiddle := (abs_sub_eq_abs_sub_iff hless.ne' q).1 htie
      linarith
    · have hmiddle := (abs_sub_eq_abs_sub_iff hless.ne q).1 htie
      linarith

end

/-! ## Decimal numbers -/

section

variable {digits : Nat} {e : Int}

/-- A decimal number as a ratio. -/
theorem decimal_eq_div (digits : Nat) (e : Int) :
    (digits : ℚ) * 10 ^ e = (digits * 10 ^ e.toNat : Nat) / (10 ^ (-e).toNat : Nat) := by
  rcases Int.le_total 0 e with hpos | hneg
  · obtain ⟨n, rfl⟩ := Int.eq_ofNat_of_zero_le hpos
    have hzero : (-(n : Int)).toNat = 0 := by omega
    rw [hzero, Int.toNat_natCast, zpow_natCast]
    push_cast
    exact (div_one _).symm
  · obtain ⟨n, hn⟩ := Int.eq_ofNat_of_zero_le (Int.neg_nonneg_of_nonpos hneg)
    have he : e = -(n : Int) := by omega
    have hzero : e.toNat = 0 := by omega
    rw [hzero, hn, Int.toNat_natCast, he, zpow_neg, zpow_natCast]
    push_cast
    rw [mul_one, div_eq_mul_inv]

/-- Unless a decimal number is too large, the shortcuts for very large and very small
numbers agree with rounding. -/
theorem ofDecimal_eq_ofRank (negative : Bool) (h : ¬ Overflows digits e) :
    ofDecimal negative digits e =
      ofRank negative (nearestRank (digits * 10 ^ e.toNat) (10 ^ (-e).toNat)) := by
  have hzero : ofRank negative 0 = zero negative := rfl
  unfold ofDecimal
  split
  · rename_i hdigits
    rw [hdigits, Nat.zero_mul, nearestRank_eq_zero (Nat.pow_pos (by decide)) (by simp), hzero]
  · rename_i hdigits
    split
    · exact absurd (overflows_of_le (Nat.pos_of_ne_zero hdigits) (by omega)) h
    · split
      · rename_i hsmall
        rw [nearestRank_of_small (lt_ten_pow_log2 digits) (by omega), hzero]
      · rfl

/-- Unless a decimal number is too large, it is rounded to the nearest double. -/
theorem exists_isNearest_ofDecimal (negative : Bool) (h : ¬ Overflows digits e) :
    ∃ rank, ofDecimal negative digits e = .finite negative rank ∧
      IsNearest (digits * 10 ^ e) rank := by
  have hden : 0 < 10 ^ (-e).toNat := Nat.pow_pos (by decide)
  have hrank : nearestRank (digits * 10 ^ e.toNat) (10 ^ (-e).toNat) < rankCount :=
    Nat.lt_of_not_le ((rankCount_le_nearestRank_iff hden).not.2 h)
  have hinterval := inInterval_nearestRank (digits * 10 ^ e.toNat) hden
  obtain ⟨rank, hval⟩ : ∃ rank : Fin rankCount,
      rank.val = nearestRank (digits * 10 ^ e.toNat) (10 ^ (-e).toNat) := ⟨⟨_, hrank⟩, rfl⟩
  rw [← hval] at hinterval
  refine ⟨rank, ?_, ?_⟩
  · rw [ofDecimal_eq_ofRank negative h, ← hval, ofRank_val]
  · rw [decimal_eq_div]
    exact hinterval.isNearest hden

/-- The nearest double is what a decimal number is rounded to. -/
theorem ofDecimal_eq_iff_isNearest (negative : Bool) {rank : Fin rankCount}
    (h : ¬ Overflows digits e) :
    ofDecimal negative digits e = .finite negative rank ↔ IsNearest (digits * 10 ^ e) rank := by
  rcases exists_isNearest_ofDecimal negative h with ⟨nearest, heq, hnearest⟩
  rw [heq]
  constructor
  · rintro ⟨⟩
    exact hnearest
  · intro hrank
    rw [hnearest.unique hrank]

end

end MetricRelay.Binary64
