import MetricRelay.Proofs.Number.Rounding

/-!
# The ends of the range

From halfway between the greatest finite double and the power of two after it, a
decimal number is too large for any double; up to half of the least positive
double it is read as zero.  Both hold of the number itself: the shortcuts for
very large and very small numbers agree with it.

Main definitions:

- `Overflows`: a decimal number is too large for a double.

Main results:

- `rankCount_le_nearestRank_iff`: which ratios are past the last rank.
- `ofDecimal_of_overflows` and `isFinite_ofDecimal`: only a number that is too
  large is read as infinite.
- `ofDecimal_eq_zero`: a number that is small enough is read as zero.
-/

namespace MetricRelay

/-! ## Rounding to natural numbers -/

/-- An even number is reached from halfway below it on. -/
theorem le_roundHalfEven_iff {a b k : Nat} (hb : 0 < b) (hk : 0 < k) (heven : k % 2 = 0) :
    k ≤ roundHalfEven a b ↔ (2 * k - 1) * b ≤ 2 * a := by
  have ha : b * (a / b) + a % b = a := Nat.div_add_mod a b
  have hr : a % b < b := Nat.mod_lt _ hb
  unfold roundHalfEven
  generalize a / b = q at ha
  generalize a % b = r at ha hr
  have hmul : (2 * k - 1) * b + b = 2 * (b * k) := by
    calc
      (2 * k - 1) * b + b = (2 * k - 1 + 1) * b := by rw [Nat.add_mul, Nat.one_mul]
      _ = 2 * (b * k) := by rw [Nat.sub_add_cancel (by omega)]; ring
  rcases Nat.lt_trichotomy k (q + 1) with hlt | heq | hlt
  · have hle : b * k ≤ b * q := Nat.mul_le_mul_left b (Nat.le_of_lt_succ hlt)
    refine iff_of_true ?_ (by omega)
    simp only
    split
    · omega
    · split <;> omega
  · have hnext : b * k = b * q + b := by rw [heq, Nat.mul_add, Nat.mul_one]
    simp only
    split
    · omega
    · split <;> omega
  · have hle : b * (q + 2) ≤ b * k := Nat.mul_le_mul_left b hlt
    rw [Nat.mul_add] at hle
    refine iff_of_false ?_ (by omega)
    simp only
    split
    · omega
    · split <;> omega

/-- A ratio below an integer is not rounded beyond it. -/
theorem roundHalfEven_le {a b k : Nat} (h : a < k * b) : roundHalfEven a b ≤ k := by
  have hb : 0 < b := Nat.pos_of_mul_pos_left (Nat.zero_lt_of_lt h)
  have hq : a / b < k := (Nat.div_lt_iff_lt_mul hb).2 h
  unfold roundHalfEven
  simp only
  split
  · omega
  · split <;> omega

/-- A ratio from an integer on is not rounded below it. -/
theorem le_roundHalfEven {a b k : Nat} (hb : 0 < b) (h : k * b ≤ a) : k ≤ roundHalfEven a b := by
  have hq : k ≤ a / b := (Nat.le_div_iff_mul_le hb).2 h
  unfold roundHalfEven
  simp only
  split
  · omega
  · split <;> omega

/-- Up to a half, a ratio is rounded to zero. -/
theorem roundHalfEven_eq_zero {a b : Nat} (hb : 0 < b) (h : 2 * a ≤ b) : roundHalfEven a b = 0 := by
  have hlt : a < b := by omega
  unfold roundHalfEven
  rw [Nat.div_eq_of_lt hlt, Nat.mod_eq_of_lt hlt]
  simp only
  split
  · rfl
  · split <;> omega

/-- A ratio in lower terms is rounded alike. -/
theorem roundHalfEven_mul_right {a b k : Nat} (hk : 0 < k) :
    roundHalfEven (a * k) (b * k) = roundHalfEven a b := by
  have hlow : 2 * (a % b * k) < b * k ↔ 2 * (a % b) < b := by
    rw [← Nat.mul_assoc, Nat.mul_lt_mul_right hk]
  have hhigh : b * k < 2 * (a % b * k) ↔ b < 2 * (a % b) := by
    rw [← Nat.mul_assoc, Nat.mul_lt_mul_right hk]
  simp only [roundHalfEven, Nat.mul_div_mul_right _ _ hk, Nat.mul_mod_mul_right, hlow, hhigh]

namespace Binary64

/-! ## Large ratios -/

/-- The power of two by which a ratio is scaled. -/
theorem excess_bounds (num : Nat) {den : Nat} (hden : 0 < den) :
    num < 2 ^ (53 + excess num den) * den ∧
      (0 < excess num den → 2 ^ (52 + excess num den) * den ≤ num) := by
  unfold excess
  constructor
  · rw [← Nat.div_lt_iff_lt_mul hden]
    by_cases hzero : num / den = 0
    · rw [hzero]
      exact Nat.two_pow_pos _
    · calc
        num / den < 2 ^ (Nat.log2 (num / den) + 1) := (Nat.log2_lt hzero).1 (Nat.lt_succ_self _)
        _ ≤ 2 ^ (53 + (Nat.log2 (num / den) - 52)) := Nat.pow_le_pow_right (by decide) (by omega)
  · intro hpos
    rw [← Nat.le_div_iff_mul_le hden, Nat.add_sub_cancel' (by omega)]
    apply Nat.log2_self_le
    intro hzero
    rw [hzero] at hpos
    exact absurd hpos (by decide)

/-- The least size that no double is near: halfway from the greatest finite double
to the next power of two. -/
@[irreducible]
def overflow : Nat := (2 ^ 54 - 1) * Nat.pow 2 970

/-- The size as a power of a variable, so that it is not computed. -/
theorem overflow_eq {n : Nat} (h : n = 970) : overflow = (2 ^ 54 - 1) * 2 ^ n := by
  unfold overflow
  rw [← h, Nat.pow_eq]

/-- The least number that is too large, in units. -/
theorem overflow_mul_units {t : Nat} (ht : t = 2044) :
    overflow * unitsPerOne = (2 ^ 54 - 1) * 2 ^ t := by
  obtain ⟨n, hn⟩ : ∃ n, n = 1074 := ⟨_, rfl⟩
  obtain ⟨m, hm⟩ : ∃ m, m = 970 := ⟨_, rfl⟩
  rw [overflow_eq hm, unitsPerOne_eq hn, Nat.mul_assoc, ← pow_add]
  congr 2
  omega

/-- The ratios that are past the last rank. -/
theorem rankCount_le_nearestRank_iff {num den : Nat} (hden : 0 < den) :
    rankCount ≤ nearestRank num den ↔ overflow * den ≤ num := by
  obtain ⟨t, ht⟩ : ∃ t, t = 2044 := ⟨_, rfl⟩
  have hunits := unitsPerOne_pos
  have hscale : overflow * den ≤ num ↔ (2 ^ 54 - 1) * (2 ^ t * den) ≤ num * unitsPerOne := by
    rw [← Nat.mul_le_mul_right_iff hunits, ← Nat.mul_assoc, ← overflow_mul_units ht,
      Nat.mul_right_comm]
  rw [hscale, nearestRank_eq_round, rankCount_eq]
  generalize num * unitsPerOne = n
  rcases excess_bounds n hden with ⟨hhigh, hlow⟩
  generalize excess n den = e at hhigh hlow
  have hstep : 0 < den * 2 ^ e := Nat.mul_pos hden (Nat.two_pow_pos e)
  have hsplit (k : Nat) : 2 ^ (k + e) * den = 2 ^ k * (den * 2 ^ e) := by
    rw [pow_add]
    ring
  rw [hsplit] at hhigh hlow
  have hle := roundHalfEven_le hhigh
  rcases Nat.lt_trichotomy e (t + 1) with hlt | rfl | hlt
  · have hpow : den * 2 ^ e ≤ 2 ^ t * den := by
      rw [Nat.mul_comm]
      exact Nat.mul_le_mul_right _ (Nat.pow_le_pow_right (by decide) (by omega))
    exact iff_of_false (by omega) (by omega)
  · have hhalf : den * 2 ^ (t + 1) = 2 * (2 ^ t * den) := by
      rw [pow_succ]
      ring
    have heven := le_roundHalfEven_iff (a := n) hstep (k := 2 ^ 53) (by decide) (by decide)
    rw [hhalf] at heven ⊢
    omega
  · have hreached := le_roundHalfEven hstep (hlow (by omega))
    have hpow : 2 ^ (t + 2) * den ≤ den * 2 ^ e := by
      rw [Nat.mul_comm]
      exact Nat.mul_le_mul_left _ (Nat.pow_le_pow_right (by decide) hlt)
    have hfour : 2 ^ (t + 2) * den = 4 * (2 ^ t * den) := by
      rw [pow_add]
      ring
    have := hlow (by omega)
    exact iff_of_true (by omega) (by omega)

/-! ## Large decimal numbers -/

/-- The number `digits * 10 ^ e` is too large for a double. -/
def Overflows (digits : Nat) (e : Int) : Prop :=
  overflow * 10 ^ (-e).toNat ≤ digits * 10 ^ e.toNat

instance (digits : Nat) (e : Int) : Decidable (Overflows digits e) := Nat.decLe _ _

theorem overflow_pos : 0 < overflow := by decide +kernel

/-- The least number that is too large is at most `10 ^ 309`. -/
theorem overflow_le {n : Nat} (h : n = 309) : overflow ≤ 10 ^ n := by
  rw [← Nat.pow_eq, h]
  decide +kernel

variable {digits k : Nat} {e : Int}

/-- A number that is too large is not zero. -/
theorem Overflows.digits_pos (h : Overflows digits e) : 0 < digits := by
  rcases Nat.eq_zero_or_pos digits with rfl | hpos
  · rw [Overflows, Nat.zero_mul] at h
    have hpos := Nat.mul_pos overflow_pos (Nat.pow_pos (n := (-e).toNat) (by decide : 0 < 10))
    omega
  · exact hpos

/-- A greater power of ten leaves a number too large. -/
theorem Overflows.mono {e' : Int} (h : Overflows digits e) (he : e ≤ e') : Overflows digits e' :=
  calc
    overflow * 10 ^ (-e').toNat ≤ overflow * 10 ^ (-e).toNat :=
      Nat.mul_le_mul_left _ (Nat.pow_le_pow_right (by decide) (by omega))
    _ ≤ digits * 10 ^ e.toNat := h
    _ ≤ digits * 10 ^ e'.toNat :=
      Nat.mul_le_mul_left _ (Nat.pow_le_pow_right (by decide) (by omega))

/-- A large power of ten alone makes a number too large. -/
theorem overflows_of_le (hdigits : 0 < digits) (h : 309 ≤ e) : Overflows digits e := by
  unfold Overflows
  rw [Int.toNat_of_nonpos (by omega), pow_zero, Nat.mul_one]
  obtain ⟨n, hn⟩ : ∃ n, n = 309 := ⟨_, rfl⟩
  calc
    overflow ≤ 10 ^ n := overflow_le hn
    _ ≤ 10 ^ e.toNat := Nat.pow_le_pow_right (by decide) (by omega)
    _ ≤ digits * 10 ^ e.toNat := Nat.le_mul_of_pos_left _ hdigits

/-- A number below one is not too large. -/
theorem not_overflows_of_lt (hdigits : digits < 10 ^ k) (h : k + e ≤ 0) : ¬ Overflows digits e := by
  unfold Overflows
  rw [Int.toNat_of_nonpos (by omega : e ≤ 0), pow_zero, Nat.mul_one, Nat.not_le]
  calc
    digits < 10 ^ k := hdigits
    _ ≤ 10 ^ (-e).toNat := Nat.pow_le_pow_right (by decide) (by omega)
    _ ≤ overflow * 10 ^ (-e).toNat := Nat.le_mul_of_pos_left _ overflow_pos

/-- Digits are fewer than a power of ten with as many zeros as they have digits in
base two. -/
theorem lt_ten_pow_log2 (digits : Nat) : digits < 10 ^ (Nat.log2 digits + 1) := by
  rcases Nat.eq_zero_or_pos digits with rfl | hpos
  · exact Nat.pow_pos (by decide)
  · calc
      digits < 2 ^ (Nat.log2 digits + 1) :=
        (Nat.log2_lt (by omega)).1 (Nat.lt_succ_self _)
      _ ≤ 10 ^ (Nat.log2 digits + 1) := Nat.pow_le_pow_left (by decide) _

/-- A number that is too large is read as infinite. -/
theorem ofDecimal_of_overflows (negative : Bool) (h : Overflows digits e) :
    ofDecimal negative digits e = .infinite negative := by
  unfold ofDecimal
  split
  · have hpos := h.digits_pos
    omega
  · split
    · rfl
    · split
      · rename_i hsmall
        exact absurd h (not_overflows_of_lt (lt_ten_pow_log2 digits) (by omega))
      · have hrank : rankCount ≤ nearestRank (digits * 10 ^ e.toNat) (10 ^ (-e).toNat) :=
          (rankCount_le_nearestRank_iff (Nat.pow_pos (by decide))).2 h
        rw [Nat.pow_eq, Nat.pow_eq, ofRatio, ofRank, dif_neg (Nat.not_lt.2 hrank)]

/-- A number that is not too large is read as a finite double. -/
theorem isFinite_ofDecimal (negative : Bool) (h : ¬ Overflows digits e) :
    (ofDecimal negative digits e).isFinite = true := by
  unfold ofDecimal
  split
  · rfl
  · rename_i hdigits
    split
    · exact absurd (overflows_of_le (Nat.pos_of_ne_zero hdigits) (by omega)) h
    · split
      · rfl
      · have hrank : nearestRank (digits * 10 ^ e.toNat) (10 ^ (-e).toNat) < rankCount :=
          Nat.lt_of_not_le ((rankCount_le_nearestRank_iff (Nat.pow_pos (by decide))).not.2 h)
        rw [Nat.pow_eq, Nat.pow_eq, ofRatio, ofRank, dif_pos hrank]
        rfl

/-! ## Small decimal numbers -/

/-- Up to half of a unit, a ratio has the rank zero. -/
theorem nearestRank_eq_zero {num den : Nat} (hden : 0 < den) (h : 2 * (num * unitsPerOne) ≤ den) :
    nearestRank num den = 0 := by
  rw [nearestRank_eq_round]
  generalize num * unitsPerOne = n at h
  have hexcess : excess n den = 0 := excess_eq_zero hden (by omega)
  rw [hexcess, pow_zero, Nat.mul_one, roundHalfEven_eq_zero hden h,
    Nat.zero_mul]

/-- Half of a unit is at least `10 ^ -324`. -/
theorem two_mul_units_le {n : Nat} (h : n = 324) : 2 * unitsPerOne ≤ 10 ^ n := by
  rw [← Nat.pow_eq, h]
  decide +kernel

/-- A number below `10 ^ -324` has the rank zero. -/
theorem nearestRank_of_small (hdigits : digits < 10 ^ k) (h : k + e ≤ -324) :
    nearestRank (digits * 10 ^ e.toNat) (10 ^ (-e).toNat) = 0 := by
  refine nearestRank_eq_zero (Nat.pow_pos (by decide)) ?_
  rw [Int.toNat_of_nonpos (by omega : e ≤ 0)]
  obtain ⟨n, hn⟩ : ∃ n, n = 324 := ⟨_, rfl⟩
  calc
    2 * (digits * 10 ^ 0 * unitsPerOne) = digits * (2 * unitsPerOne) := by ring
    _ ≤ 10 ^ k * 10 ^ n := Nat.mul_le_mul (Nat.le_of_lt hdigits) (two_mul_units_le hn)
    _ = 10 ^ (k + n) := (pow_add 10 k n).symm
    _ ≤ 10 ^ (-e).toNat := Nat.pow_le_pow_right (by decide) (by omega)

/-- A number below `10 ^ -324` is read as zero. -/
theorem ofDecimal_eq_zero (negative : Bool) (hdigits : digits < 10 ^ k) (h : k + e ≤ -324) :
    ofDecimal negative digits e = zero negative := by
  unfold ofDecimal
  split
  · rfl
  · split
    · omega
    · split
      · rfl
      · rw [Nat.pow_eq, Nat.pow_eq, ofRatio, nearestRank_of_small hdigits h]
        rfl

/-! ## Ratios -/

/-- A ratio in lower terms has the same rank. -/
theorem nearestRank_mul_right (num den : Nat) {k : Nat} (hk : 0 < k) :
    nearestRank (num * k) (den * k) = nearestRank num den := by
  have hexcess : excess (num * unitsPerOne * k) (den * k) = excess (num * unitsPerOne) den := by
    unfold excess
    rw [Nat.mul_div_mul_right _ _ hk]
  rw [nearestRank_eq_round, nearestRank_eq_round, Nat.mul_right_comm num, hexcess,
    Nat.mul_right_comm den, roundHalfEven_mul_right hk]

/-- A decimal number for which neither shortcut is taken. -/
theorem ofDecimal_eq_ofRatio (negative : Bool) (hdigits : 0 < digits) (hhigh : e ≤ 400)
    (hlow : -400 ≤ e + Nat.log2 digits + 1) :
    ofDecimal negative digits e = ofRatio negative (digits * 10 ^ e.toNat) (10 ^ (-e).toNat) := by
  rw [ofDecimal, if_neg (by omega), if_neg (by omega), if_neg (by omega), Nat.pow_eq, Nat.pow_eq]

/-- Zeros are taken away by the exponent. -/
theorem ofDecimal_ten_pow (negative : Bool) (n : Nat) :
    ofDecimal negative (10 ^ n) (-n) = ofDecimal negative 1 0 := by
  have hpos : 0 < 10 ^ n := Nat.pow_pos (by decide)
  have hlog : n ≤ Nat.log2 (10 ^ n) := by
    rw [Nat.le_log2 (by omega)]
    exact Nat.pow_le_pow_left (by decide) n
  have hrank := nearestRank_mul_right 1 1 hpos
  rw [ofDecimal_eq_ofRatio negative hpos (by omega) (by omega),
    ofDecimal_eq_ofRatio negative (by decide) (by decide) (by decide), ofRatio, ofRatio,
    Int.toNat_of_nonpos (by omega), Int.neg_neg, Int.toNat_natCast, pow_zero, Nat.mul_one]
  rw [Nat.one_mul] at hrank
  rw [hrank]
  rfl

end Binary64

end MetricRelay
