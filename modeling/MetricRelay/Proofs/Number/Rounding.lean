import Mathlib.Tactic.Linarith
import Mathlib.Tactic.Ring
import MetricRelay.Number.Rounding
import MetricRelay.Number.Shortest

/-!
# Rounding to the nearest double

The numbers that are nearest to one double form an interval, which ends halfway
to the two neighbours and has its ends in it exactly if the rank is even.  This
file proves that every ratio in the interval of a rank is rounded to that rank,
also where the interval reaches over a power of two.

Main results:

- `units_succ`: the distance from a double to the next one.
- `roundHalfEven_eq`: which natural number a ratio is rounded to.
- `nearestRank_eq`: a ratio in the rounding interval of a rank has that rank.
- `ofDecimal_eq`: the shortcuts for very large and very small decimal numbers
  agree with rounding.
-/

namespace MetricRelay

/-! ## Natural numbers -/

/-- A ratio is rounded to a natural number that is at most a half away, a half
away only if it is even. -/
theorem roundHalfEven_eq {a b k : Nat} (hb : 0 < b)
    (hlow : 2 * (k * b) ≤ 2 * a + b) (hhigh : 2 * a ≤ 2 * (k * b) + b)
    (hodd : k % 2 = 1 → 2 * (k * b) < 2 * a + b ∧ 2 * a < 2 * (k * b) + b) :
    roundHalfEven a b = k := by
  have ha : b * (a / b) + a % b = a := Nat.div_add_mod a b
  have hr : a % b < b := Nat.mod_lt _ hb
  unfold roundHalfEven
  generalize a / b = q at ha
  generalize a % b = r at ha hr
  have hqk : q = k ∨ q + 1 = k := by
    have hle : q < k + 1 := by
      apply Nat.lt_of_mul_lt_mul_left (a := b)
      rw [Nat.mul_add, Nat.mul_comm b k]
      omega
    have hge : k < q + 2 := by
      apply Nat.lt_of_mul_lt_mul_left (a := b)
      rw [Nat.mul_add, Nat.mul_comm b k]
      omega
    omega
  rcases hqk with rfl | rfl
  · rw [Nat.mul_comm q b] at hlow hhigh hodd
    simp only
    split
    · rfl
    · split <;> omega
  · rw [Nat.add_mul, Nat.one_mul, Nat.mul_comm q b] at hlow hhigh hodd
    simp only
    split
    · omega
    · split <;> omega

namespace Binary64

/-! ## Powers -/

theorem rankCount_eq : rankCount = 2047 * 2 ^ 52 := rfl

theorem significand_eq (rank : Nat) :
    significand rank = if rank < 2 ^ 52 then rank else 2 ^ 52 + rank % 2 ^ 52 :=
  rfl

theorem nearestRank_eq_round (num den : Nat) :
    nearestRank num den =
      roundHalfEven (num * unitsPerOne) (den * 2 ^ excess (num * unitsPerOne) den) +
        excess (num * unitsPerOne) den * 2 ^ 52 :=
  rfl

/-- The unit as a power of a variable, so that it is not computed. -/
theorem unitsPerOne_eq {n : Nat} (h : n = 1074) : unitsPerOne = 2 ^ n := by
  unfold unitsPerOne
  rw [← h, Nat.pow_eq]

/-- One has units. -/
theorem unitsPerOne_pos : 0 < unitsPerOne := by
  obtain ⟨n, hn⟩ : ∃ n, n = 1074 := ⟨_, rfl⟩
  rw [unitsPerOne_eq hn]
  exact Nat.two_pow_pos n

/-- Grains as a power of a variable, so that it is not computed. -/
theorem grainsPerUnit_eq {n : Nat} (h : n = 1074) : grainsPerUnit = 5 ^ n := by
  unfold grainsPerUnit
  rw [← h, Nat.pow_eq]

/-! ## Doubles and their neighbours -/

/-- The power of two that separates a double from the next one. -/
def exponent (rank : Nat) : Nat := rank / 2 ^ 52 - 1

theorem units_eq (rank : Nat) : units rank = significand rank * 2 ^ exponent rank := rfl

/-- A rank counts doubles: significands of one power of two, then of the next. -/
theorem significand_add (rank : Nat) : significand rank + exponent rank * 2 ^ 52 = rank := by
  rw [significand_eq]
  unfold exponent
  split <;> omega

/-- A significand has at most 53 binary digits. -/
theorem significand_lt (rank : Nat) : significand rank < 2 ^ 53 := by
  rw [significand_eq]
  split <;> omega

/-- Above the least power of two a significand has all of its 53 binary digits. -/
theorem le_significand {rank : Nat} (h : 0 < exponent rank) : 2 ^ 52 ≤ significand rank := by
  rw [significand_eq]
  unfold exponent at h
  split <;> omega

/-- The next rank has the next significand, or the least one of the next power
of two. -/
theorem succ_cases (rank : Nat) :
    significand (rank + 1) = significand rank + 1 ∧ exponent (rank + 1) = exponent rank ∨
      significand rank + 1 = 2 ^ 53 ∧ significand (rank + 1) = 2 ^ 52 ∧
        exponent (rank + 1) = exponent rank + 1 := by
  rw [significand_eq, significand_eq]
  unfold exponent
  split <;> split <;> omega

/-- The distance from a double to the next one. -/
theorem units_succ (rank : Nat) : units (rank + 1) = units rank + 2 ^ exponent rank := by
  rw [units_eq, units_eq]
  rcases succ_cases rank with ⟨hs, he⟩ | ⟨hs, hs', he⟩
  · rw [hs, he]
    ring
  · rw [hs', he, show significand rank = 2 ^ 53 - 1 by omega, pow_succ]
    ring

/-- The distance from a double to the one before it is the same or, at a power
of two, half of it. -/
theorem units_pred {rank : Nat} (h : 0 < rank) :
    (significand rank ≠ 2 ^ 52 ∨ exponent rank = 0) ∧
        units (rank - 1) + 2 ^ exponent rank = units rank ∨
      significand rank = 2 ^ 52 ∧ exponent rank = exponent (rank - 1) + 1 ∧
        units (rank - 1) + 2 ^ exponent (rank - 1) = units rank := by
  obtain ⟨r, rfl⟩ : ∃ r, rank = r + 1 := ⟨rank - 1, by omega⟩
  rw [Nat.add_sub_cancel, units_succ]
  rcases succ_cases r with ⟨hs, he⟩ | ⟨-, hs, he⟩
  · have hle := @le_significand r
    exact Or.inl ⟨by omega, by rw [he]⟩
  · exact Or.inr ⟨hs, he, rfl⟩

/-! ## Rounding intervals -/

/-- A ratio of units lies in the rounding interval of a rank: between the
midpoints to the neighbours, which belong to it if the rank is even. -/
structure InInterval (rank num den : Nat) : Prop where
  low : (units (rank - 1) + units rank) * den ≤ 2 * num
  high : 2 * num ≤ (units rank + units (rank + 1)) * den
  odd : rank % 2 = 1 →
    (units (rank - 1) + units rank) * den < 2 * num ∧
      2 * num < (units rank + units (rank + 1)) * den

namespace InInterval

variable {rank num den : Nat}

/-- The upper end, in steps of the rank's power of two. -/
theorem high_eq (h : InInterval rank num den) :
    2 * num ≤ (2 * significand rank + 1) * (den * 2 ^ exponent rank) := by
  have hhigh := h.high
  rw [units_succ, units_eq] at hhigh
  calc
    2 * num ≤ (significand rank * 2 ^ exponent rank +
        (significand rank * 2 ^ exponent rank + 2 ^ exponent rank)) * den := hhigh
    _ = (2 * significand rank + 1) * (den * 2 ^ exponent rank) := by ring

/-- If the rank is odd, the upper end is not in the interval. -/
theorem high_lt (h : InInterval rank num den) (hodd : rank % 2 = 1) :
    2 * num < (2 * significand rank + 1) * (den * 2 ^ exponent rank) := by
  have hhigh := (h.odd hodd).2
  rw [units_succ, units_eq] at hhigh
  calc
    2 * num < (significand rank * 2 ^ exponent rank +
        (significand rank * 2 ^ exponent rank + 2 ^ exponent rank)) * den := hhigh
    _ = (2 * significand rank + 1) * (den * 2 ^ exponent rank) := by ring

/-- No ratio in the interval has more binary digits than a significand and the
power of two together. -/
theorem lt_top (h : InInterval rank num den) (hden : 0 < den) :
    num < 2 ^ (53 + exponent rank) * den := by
  have hhigh := h.high_eq
  have hs := significand_lt rank
  have hstep : 0 < den * 2 ^ exponent rank := Nat.mul_pos hden (Nat.two_pow_pos _)
  have hle : (2 * significand rank + 1) * (den * 2 ^ exponent rank) ≤
      (2 ^ 54 - 1) * (den * 2 ^ exponent rank) := Nat.mul_le_mul_right _ (by omega)
  have hpow : 2 ^ (53 + exponent rank) * den = 2 ^ 53 * (den * 2 ^ exponent rank) := by
    rw [pow_add]
    ring
  rw [hpow]
  omega

end InInterval

/-! ## The nearest rank -/

/-- A number between two powers of two has the logarithm of the lower one. -/
theorem log2_eq_of_bounds {q e : Nat} (hlow : 2 ^ e ≤ q) (hhigh : q < 2 ^ (e + 1)) :
    Nat.log2 q = e := by
  have hq : q ≠ 0 := by
    have := Nat.two_pow_pos e
    omega
  exact Nat.le_antisymm (Nat.le_of_lt_succ ((Nat.log2_lt hq).2 hhigh)) ((Nat.le_log2 hq).2 hlow)

/-- The number of binary digits of a ratio decides how far it is scaled. -/
theorem excess_eq {num den e : Nat} (hden : 0 < den) (hlow : 2 ^ (52 + e) * den ≤ num)
    (hhigh : num < 2 ^ (53 + e) * den) : excess num den = e := by
  have hq : Nat.log2 (num / den) = 52 + e := by
    apply log2_eq_of_bounds ((Nat.le_div_iff_mul_le hden).2 hlow)
    rw [Nat.div_lt_iff_lt_mul hden]
    calc
      num < 2 ^ (53 + e) * den := hhigh
      _ = 2 ^ (52 + e + 1) * den := by rw [show 53 + e = 52 + e + 1 by omega]
  unfold excess
  omega

/-- A ratio with few binary digits is not scaled. -/
theorem excess_eq_zero {num den : Nat} (hden : 0 < den) (hhigh : num < 2 ^ 53 * den) :
    excess num den = 0 := by
  have hq : num / den < 2 ^ 53 := (Nat.div_lt_iff_lt_mul hden).2 hhigh
  unfold excess
  by_cases h : num / den = 0
  · rw [h]
    rfl
  · have := (Nat.log2_lt h).2 hq
    omega

/-- The rank of a ratio that is scaled by its own power of two. -/
theorem InInterval.round_eq {rank num den : Nat} (h : InInterval rank num den) (hden : 0 < den)
    (hrank : 0 < rank) :
    roundHalfEven num (den * 2 ^ exponent rank) = significand rank := by
  have hparity := significand_add rank
  have hhigh := h.high_eq
  have hlow : (2 * significand rank) * (den * 2 ^ exponent rank) ≤
      2 * num + den * 2 ^ exponent rank ∧
      (rank % 2 = 1 → (2 * significand rank) * (den * 2 ^ exponent rank) <
        2 * num + den * 2 ^ exponent rank) := by
    have hcases := units_pred hrank
    have hbase := h.low
    have hstep : units (rank - 1) + 2 ^ exponent rank ≥ units rank := by
      rcases hcases with ⟨-, heq⟩ | ⟨-, he, heq⟩
      · omega
      · rw [he, pow_succ]
        have := Nat.two_pow_pos (exponent (rank - 1))
        omega
    have hmul : (2 * significand rank) * (den * 2 ^ exponent rank) ≤
        (units (rank - 1) + units rank) * den + den * 2 ^ exponent rank := by
      calc
        (2 * significand rank) * (den * 2 ^ exponent rank)
            = (units rank + units rank) * den := by rw [units_eq]; ring
        _ ≤ (units (rank - 1) + 2 ^ exponent rank + units rank) * den :=
            Nat.mul_le_mul_right _ (by omega)
        _ = (units (rank - 1) + units rank) * den + den * 2 ^ exponent rank := by ring
    exact ⟨by omega, fun hodd => by have := (h.odd hodd).1; omega⟩
  refine roundHalfEven_eq (Nat.mul_pos hden (Nat.two_pow_pos _)) ?_ ?_ ?_
  · rw [← Nat.mul_assoc]
    exact hlow.1
  · calc
      2 * num ≤ (2 * significand rank + 1) * (den * 2 ^ exponent rank) := hhigh
      _ = 2 * (significand rank * (den * 2 ^ exponent rank)) + den * 2 ^ exponent rank := by ring
  · intro hodd
    have hoddRank : rank % 2 = 1 := by omega
    constructor
    · rw [← Nat.mul_assoc]
      exact hlow.2 hoddRank
    · calc
        2 * num < (2 * significand rank + 1) * (den * 2 ^ exponent rank) := h.high_lt hoddRank
        _ = 2 * (significand rank * (den * 2 ^ exponent rank)) + den * 2 ^ exponent rank := by ring

/-- Below a power of two the interval of that power reaches into numbers with
one binary digit less. -/
theorem InInterval.round_eq_of_lt {rank num den : Nat} (h : InInterval rank num den)
    (hden : 0 < den) (he : 0 < exponent rank) (hlt : num < 2 ^ (52 + exponent rank) * den) :
    excess num den + 1 = exponent rank ∧
      roundHalfEven num (den * 2 ^ excess num den) = 2 ^ 53 ∧ significand rank = 2 ^ 52 := by
  obtain ⟨e, hexp⟩ : ∃ e, exponent rank = e + 1 := ⟨exponent rank - 1, by omega⟩
  have hrank : 0 < rank := by
    rcases Nat.eq_zero_or_pos rank with rfl | hpos
    · exact absurd he (by decide)
    · exact hpos
  have hstep : 0 < den * 2 ^ e := Nat.mul_pos hden (Nat.two_pow_pos e)
  have hlow := h.low
  have hs := le_significand he
  have hunits : units rank * den = 2 * (significand rank * (den * 2 ^ e)) := by
    rw [units_eq, hexp, pow_succ]
    ring
  have hnum : num < 2 ^ 53 * (den * 2 ^ e) := by
    calc
      num < 2 ^ (52 + exponent rank) * den := hlt
      _ = 2 ^ 53 * (den * 2 ^ e) := by rw [hexp, show 52 + (e + 1) = 53 + e by omega, pow_add]; ring
  -- Only the least significand leaves room below its power of two.
  have hsig : significand rank = 2 ^ 52 ∧ units (rank - 1) + 2 ^ e = units rank := by
    rcases units_pred hrank with ⟨hne, heq⟩ | ⟨hsig, hexp', heq⟩
    · exfalso
      have hpred : units (rank - 1) * den + 2 * (den * 2 ^ e) = units rank * den := by
        rw [← heq, hexp, pow_succ]
        ring
      have hmul : (2 ^ 52 + 1) * (den * 2 ^ e) ≤ significand rank * (den * 2 ^ e) :=
        Nat.mul_le_mul_right _ (by omega)
      rw [Nat.add_mul] at hlow
      omega
    · have : exponent (rank - 1) = e := by omega
      rw [this] at heq
      exact ⟨hsig, heq⟩
  rcases hsig with ⟨hsig, hpred⟩
  have hunits' : units rank * den = 2 ^ 53 * (den * 2 ^ e) := by
    rw [hunits, hsig]
    ring
  have hpred' : units (rank - 1) * den + den * 2 ^ e = units rank * den := by
    rw [← hpred]
    ring
  rw [Nat.add_mul] at hlow
  have hexcess : excess num den = e := by
    apply excess_eq hden
    · calc
        2 ^ (52 + e) * den = 2 ^ 52 * (den * 2 ^ e) := by rw [pow_add]; ring
        _ ≤ num := by omega
    · calc
        num < 2 ^ 53 * (den * 2 ^ e) := hnum
        _ = 2 ^ (53 + e) * den := by rw [pow_add]; ring
  refine ⟨by omega, ?_, hsig⟩
  rw [hexcess]
  exact roundHalfEven_eq hstep (by omega) (by omega) (by omega)

/-- A ratio in the rounding interval of a rank has that rank. -/
theorem nearestRank_eq {rank num den : Nat} (hden : 0 < den) (hrank : 0 < rank)
    (h : InInterval rank (num * unitsPerOne) den) : nearestRank num den = rank := by
  have hparts := significand_add rank
  rw [nearestRank_eq_round]
  generalize num * unitsPerOne = n at h
  have htop := h.lt_top hden
  rcases Nat.eq_zero_or_pos (exponent rank) with hzero | hpos
  · have hround := h.round_eq hden hrank
    rw [hzero] at htop hround hparts
    rw [excess_eq_zero hden htop, hround]
    exact hparts
  · rcases Nat.lt_or_ge n (2 ^ (52 + exponent rank) * den) with hlt | hge
    · rcases h.round_eq_of_lt hden hpos hlt with ⟨hexcess, hround, hsig⟩
      rw [hround]
      omega
    · rw [excess_eq hden hge htop, h.round_eq hden hrank]
      exact hparts

/-! ## Decimal numbers -/

/-- An interval holds ratios, however they are written. -/
theorem InInterval.of_eq {rank num den num' den' : Nat} (h : InInterval rank num den)
    (hden : 0 < den) (hden' : 0 < den') (heq : num * den' = num' * den) :
    InInterval rank num' den' := by
  have hscale : 2 * num' * den = 2 * num * den' := by
    rw [Nat.mul_assoc, ← heq, Nat.mul_assoc]
  have hswap : ∀ a : Nat, a * den' * den = a * den * den' := fun a => Nat.mul_right_comm a den' den
  refine ⟨?_, ?_, fun hodd => ⟨?_, ?_⟩⟩
  · apply Nat.le_of_mul_le_mul_right (c := den) _ hden
    rw [hscale, hswap]
    exact Nat.mul_le_mul_right _ h.low
  · apply Nat.le_of_mul_le_mul_right (c := den) _ hden
    rw [hscale, hswap]
    exact Nat.mul_le_mul_right _ h.high
  · apply Nat.lt_of_mul_lt_mul_right (a := den)
    rw [hscale, hswap]
    exact Nat.mul_lt_mul_of_pos_right (h.odd hodd).1 hden'
  · apply Nat.lt_of_mul_lt_mul_right (a := den)
    rw [hscale, hswap]
    exact Nat.mul_lt_mul_of_pos_right (h.odd hodd).2 hden'

/-- Only the rank zero is no units. -/
theorem units_pos {rank : Nat} (h : 0 < rank) : 0 < units rank := by
  obtain ⟨r, rfl⟩ : ∃ r, rank = r + 1 := ⟨rank - 1, by omega⟩
  have := Nat.two_pow_pos (exponent r)
  rw [units_succ]
  omega

/-- The finite ranks have 2046 powers of two. -/
theorem exponent_lt {rank : Nat} (h : rank < rankCount) : exponent rank < 2046 := by
  rw [rankCount_eq] at h
  unfold exponent
  omega

theorem ten_pow (n : Nat) : 10 ^ n = 2 ^ n * 5 ^ n := by
  rw [← Nat.mul_pow]

/-- A power of two and one of five are bounded by one of ten, as `8 ≤ 10`. -/
theorem two_pow_mul_five_pow_le {k n s : Nat} (hn : n ≤ s) (hk : k ≤ 3 * (s - n) + n) :
    2 ^ k * 5 ^ n ≤ 10 ^ s := by
  calc
    2 ^ k * 5 ^ n ≤ 2 ^ (3 * (s - n) + n) * 5 ^ n :=
      Nat.mul_le_mul_right _ (Nat.pow_le_pow_right (by decide) hk)
    _ = 8 ^ (s - n) * 10 ^ n := by
      rw [pow_add, pow_mul, ten_pow, Nat.mul_assoc, show (2 : Nat) ^ 3 = 8 from rfl]
    _ ≤ 10 ^ (s - n) * 10 ^ n := Nat.mul_le_mul_right _ (Nat.pow_le_pow_left (by decide) _)
    _ = 10 ^ s := by rw [← pow_add, Nat.sub_add_cancel hn]

/-- Twice a power of ten is bounded by one of five, as `4 ≤ 5`. -/
theorem two_mul_ten_pow_le_five_pow {n k : Nat} (hn : n ≤ k) (hk : n + 1 ≤ 2 * (k - n)) :
    2 * 10 ^ n ≤ 5 ^ k := by
  calc
    2 * 10 ^ n = 2 ^ (n + 1) * 5 ^ n := by rw [ten_pow, pow_succ]; ring
    _ ≤ 2 ^ (2 * (k - n)) * 5 ^ n :=
      Nat.mul_le_mul_right _ (Nat.pow_le_pow_right (by decide) hk)
    _ ≤ 5 ^ (k - n) * 5 ^ n := by
      rw [pow_mul]
      exact Nat.mul_le_mul_right _ (Nat.pow_le_pow_left (by decide) _)
    _ = 5 ^ k := by rw [← pow_add, Nat.sub_add_cancel hn]

/-- A unit has grains. -/
theorem grainsPerUnit_pos : 0 < grainsPerUnit := by
  obtain ⟨n, hn⟩ : ∃ n, n = 1074 := ⟨_, rfl⟩
  rw [grainsPerUnit_eq hn]
  exact Nat.pow_pos (by decide)

/-- The greatest finite double is below `10 ^ 401`. -/
theorem two_pow_mul_grains_le {e s : Nat} (he : e < 2046) (hs : 1475 ≤ s) :
    2 ^ (53 + e) * grainsPerUnit ≤ 10 ^ s := by
  obtain ⟨n, hn⟩ : ∃ n, n = 1074 := ⟨_, rfl⟩
  rw [grainsPerUnit_eq hn]
  exact two_pow_mul_five_pow_le (by omega) (by omega)

/-- The least positive double is above `10 ^ -400`. -/
theorem two_mul_ten_pow_le {n : Nat} (h : n ≤ 673) : 2 * 10 ^ n ≤ grainsPerUnit := by
  obtain ⟨k, hk⟩ : ∃ k, k = 1074 := ⟨_, rfl⟩
  rw [grainsPerUnit_eq hk]
  exact two_mul_ten_pow_le_five_pow (by omega) (by omega)

/-- The number `digits * 10 ^ (scale - 1074)` lies in the rounding interval of a
rank. -/
abbrev DecimalIn (rank digits scale : Nat) : Prop :=
  InInterval rank (digits * 10 ^ scale) grainsPerUnit

namespace DecimalIn

variable {rank digits scale : Nat}

/-- A number that is not rounded to zero is at least half of a unit. -/
theorem grains_le (h : DecimalIn rank digits scale) (hrank : 0 < rank) :
    grainsPerUnit ≤ 2 * (digits * 10 ^ scale) := by
  have hunits := units_pos hrank
  calc
    grainsPerUnit = 1 * grainsPerUnit := (Nat.one_mul _).symm
    _ ≤ (units (rank - 1) + units rank) * grainsPerUnit := Nat.mul_le_mul_right _ (by omega)
    _ ≤ 2 * (digits * 10 ^ scale) := h.low

/-- A number that is not rounded to zero has digits other than zero. -/
theorem digits_pos (h : DecimalIn rank digits scale) (hrank : 0 < rank) : 0 < digits := by
  rcases Nat.eq_zero_or_pos digits with rfl | hpos
  · have hlow := h.grains_le hrank
    have hgrains := grainsPerUnit_pos
    omega
  · exact hpos

/-- A number that is rounded to a finite double has no large exponent. -/
theorem scale_le (h : DecimalIn rank digits scale) (hrank : 0 < rank)
    (hfinite : rank < rankCount) : scale ≤ 1474 := by
  by_contra hlt
  apply Nat.lt_irrefl (10 ^ scale)
  calc
    10 ^ scale ≤ digits * 10 ^ scale := Nat.le_mul_of_pos_left _ (h.digits_pos hrank)
    _ < 2 ^ (53 + exponent rank) * grainsPerUnit := h.lt_top grainsPerUnit_pos
    _ ≤ 10 ^ scale := two_pow_mul_grains_le (exponent_lt hfinite) (by omega)

/-- A number that is not rounded to zero has no small exponent, or many digits. -/
theorem le_log2 (h : DecimalIn rank digits scale) (hrank : 0 < rank) :
    674 ≤ scale + Nat.log2 digits + 1 := by
  by_contra hlt
  have hdigits := h.digits_pos hrank
  have hlog : digits < 2 ^ (Nat.log2 digits + 1) := (Nat.log2_lt (by omega)).1 (Nat.lt_succ_self _)
  have hten : digits * 10 ^ scale < 10 ^ (Nat.log2 digits + 1) * 10 ^ scale :=
    Nat.mul_lt_mul_of_pos_right
      (Nat.lt_of_lt_of_le hlog (Nat.pow_le_pow_left (by decide) _)) (Nat.pow_pos (by decide))
  rw [← pow_add] at hten
  have hsmall := two_mul_ten_pow_le (n := Nat.log2 digits + 1 + scale) (by omega)
  have hlarge := h.grains_le hrank
  omega

/-- A decimal number in an interval, as a ratio over a power of ten. -/
theorem toRatio (h : DecimalIn rank digits scale) {e : Int} (he : e = (scale : Int) - 1074) :
    InInterval rank (digits * 10 ^ e.toNat * unitsPerOne) (10 ^ (-e).toNat) := by
  apply InInterval.of_eq h grainsPerUnit_pos (Nat.pow_pos (by decide))
  obtain ⟨n, hn⟩ : ∃ n, n = 1074 := ⟨_, rfl⟩
  have hsplit : 10 ^ scale * 10 ^ (-e).toNat = 10 ^ e.toNat * 10 ^ n := by
    rw [← pow_add, ← pow_add]
    congr 1
    omega
  calc
    digits * 10 ^ scale * 10 ^ (-e).toNat = digits * (10 ^ e.toNat * 10 ^ n) := by
      rw [Nat.mul_assoc, hsplit]
    _ = digits * 10 ^ e.toNat * unitsPerOne * grainsPerUnit := by
      rw [ten_pow n, ← unitsPerOne_eq hn, ← grainsPerUnit_eq hn, ← Nat.mul_assoc, ← Nat.mul_assoc]

end DecimalIn

/-- A decimal number in the rounding interval of a finite double is read as that
double: the shortcuts for large and small numbers do not concern it. -/
theorem ofDecimal_eq (negative : Bool) {rank : Fin rankCount} {digits scale : Nat} {e : Int}
    (hrank : 0 < rank.val) (he : e = (scale : Int) - 1074) (h : DecimalIn rank.val digits scale) :
    ofDecimal negative digits e = .finite negative rank := by
  have hdigits := h.digits_pos hrank
  have hscale := h.scale_le hrank rank.isLt
  have hlog := h.le_log2 hrank
  have hnearest : nearestRank (digits * Nat.pow 10 e.toNat) (Nat.pow 10 (-e).toNat) = rank.val :=
    nearestRank_eq (Nat.pow_pos (by decide)) hrank (h.toRatio he)
  unfold ofDecimal
  rw [if_neg (by omega), if_neg (by omega), if_neg (by omega), ofRatio, hnearest, ofRank_val]

end Binary64

end MetricRelay
