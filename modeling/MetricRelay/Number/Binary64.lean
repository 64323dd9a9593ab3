/-!
# Double-precision numbers

A reading is a double of the IEEE standard.  The finite doubles of one sign are numbered from
zero upwards by their *rank*, the low sixty-three bits of the encoding, and each is a whole number
of units of `2 ^ -1074`.  So every question about a finite double is a question about natural
numbers, and two doubles are the same bit for bit exactly when they are equal here.

Main definitions:

- `Binary64`: not a number, an infinity, or a sign and a rank.
- `units`: how many units the finite double of a rank is.

Main results:

- `units_lt_succ`: a higher rank is a greater number.
-/

namespace MetricRelay

/-- How many finite doubles of one sign there are. -/
def Binary64.rankCount : Nat := 2047 * Nat.pow 2 52

/-- A double of the IEEE standard. -/
inductive Binary64 where
  | nan
  | infinite (negative : Bool)
  | finite (negative : Bool) (rank : Fin Binary64.rankCount)
  deriving DecidableEq

namespace Binary64

/-- The double with neither sign nor size. -/
def zero (negative : Bool) : Binary64 := .finite negative ⟨0, by decide⟩

instance : Inhabited Binary64 := ⟨zero false⟩

/-- Whether a double is a number with an end. -/
def isFinite : Binary64 → Bool
  | .finite .. => true
  | _ => false

/-- A double with both zeros taken for the one without a sign. -/
def unsignZero : Binary64 → Binary64
  | .finite negative rank => if rank.val = 0 then zero false else .finite negative rank
  | x => x

/-- The double of a sign and a rank; past the last rank it is infinite. -/
def ofRank (negative : Bool) (rank : Nat) : Binary64 :=
  if h : rank < rankCount then .finite negative ⟨rank, h⟩ else .infinite negative

/-- The digits of a rank's number in base two. -/
def significand (rank : Nat) : Nat :=
  if rank < Nat.pow 2 52 then rank else Nat.pow 2 52 + rank % Nat.pow 2 52

/-- The number of a rank in units of `2 ^ -1074`. -/
def units (rank : Nat) : Nat :=
  significand rank * Nat.pow 2 (rank / Nat.pow 2 52 - 1)

/-- The unit: `unitsPerOne` of them make one. -/
def unitsPerOne : Nat := Nat.pow 2 1074

/-- A double is found by its rank. -/
@[simp]
theorem ofRank_val (negative : Bool) (rank : Fin rankCount) :
    ofRank negative rank.val = .finite negative rank := by
  simp [ofRank]

/-- The next rank is a greater number. -/
theorem units_lt_succ (rank : Nat) : units rank < units (rank + 1) := by
  have hpow : ∀ e : Nat, 0 < 2 ^ e := fun e => Nat.two_pow_pos e
  unfold units significand
  simp only [Nat.pow_eq]
  by_cases h : rank + 1 < 2 ^ 52
  · rw [if_pos (by omega), if_pos h, show rank / 2 ^ 52 - 1 = 0 by omega,
      show (rank + 1) / 2 ^ 52 - 1 = 0 by omega]
    omega
  · by_cases h' : rank + 1 = 2 ^ 52
    · rw [if_pos (by omega), if_neg h, show rank / 2 ^ 52 - 1 = 0 by omega,
        show (rank + 1) / 2 ^ 52 - 1 = 0 by omega]
      omega
    · rw [if_neg (by omega), if_neg h]
      by_cases hw : (rank + 1) % 2 ^ 52 = 0
      · have hq : (rank + 1) / 2 ^ 52 - 1 = rank / 2 ^ 52 - 1 + 1 := by omega
        rw [hw, hq, Nat.pow_succ]
        have := hpow (rank / 2 ^ 52 - 1)
        have hm : rank % 2 ^ 52 < 2 ^ 52 := Nat.mod_lt _ (by decide)
        calc (2 ^ 52 + rank % 2 ^ 52) * 2 ^ (rank / 2 ^ 52 - 1)
            < (2 ^ 52 + 2 ^ 52) * 2 ^ (rank / 2 ^ 52 - 1) :=
              Nat.mul_lt_mul_of_pos_right (by omega) this
          _ = (2 ^ 52 + 0) * (2 ^ (rank / 2 ^ 52 - 1) * 2) := by
              rw [Nat.add_zero, ← Nat.two_mul, Nat.mul_comm 2, Nat.mul_assoc,
                Nat.mul_comm 2]
      · have hq : (rank + 1) / 2 ^ 52 = rank / 2 ^ 52 := by omega
        have hm : (rank + 1) % 2 ^ 52 = rank % 2 ^ 52 + 1 := by omega
        rw [hq, hm]
        exact Nat.mul_lt_mul_of_pos_right (by omega) (hpow _)

end Binary64

end MetricRelay
