import MetricRelay.Proofs.Number.Extremes
import MetricRelay.Proofs.Number.Literal

/-!
# Exponents that are not counted in full

A message counts all digits of an exponent; free text leaves digits out once the
exponent has passed `0xffff`.  For almost every literal this makes no difference,
because such an exponent alone decides that the number is too large or zero.  It
does make one if more digits than the exponent says stand on the other side of the
point.

Main definitions:

- `Literal.CountsAlike`: the exponent is counted in full, or there are few digits
  against which it could be weighed.
- `Literal.shifted`: a one with zeros behind it and a large negative exponent.
- `Literal.crowded`: a one with zeros before it and a large exponent.

Main results:

- `Literal.Valid.readDouble?_eq_readNumeral?`: such a literal stands for one double.
- `Literal.Readable.overflows_powerIn`: which numbers stay too large in free text.
- `Literal.readDouble?_shifted` and `Literal.readNumeral?_shifted`: what becomes
  of a literal with too many zeros.
- `Literal.readDouble?_crowded`: a number that is too large may be read as one.
-/

namespace MetricRelay

namespace Literal

/-! ## Exponents -/

/-- Digits of an exponent are left out only where it is large in both ways of
counting, and has the same sign. -/
theorem Readable.exponentIn_cases {x : Literal} (h : x.Readable) :
    x.exponentIn cappedDigits = x.exponentIn digitsNat ∨
      0x10000 ≤ x.exponentIn cappedDigits ∧ 655360 ≤ x.exponentIn digitsNat ∨
      x.exponentIn cappedDigits ≤ -0x10000 ∧ x.exponentIn digitsNat ≤ -655360 ∧
        x.exponentIn digitsNat ≤ x.exponentIn cappedDigits := by
  unfold exponentIn
  cases he : x.exponent with
  | none => exact Or.inl rfl
  | some e =>
    simp only [Option.bind_some]
    rcases h.exponent_integer e he with ⟨s, ⟨hs, hne⟩, rfl | rfl | rfl⟩
    · rw [readSigned?_of_all hs hne, readSigned?_of_all hs hne, Option.getD_some, Option.getD_some]
      have := cappedDigits_cases e
      omega
    · rw [readSigned?_minus hs hne, readSigned?_minus hs hne, Option.getD_some, Option.getD_some]
      have := cappedDigits_cases s
      have := cappedDigits_le s
      omega
    · rw [readSigned?_plus hs hne, readSigned?_plus hs hne, Option.getD_some, Option.getD_some]
      have := cappedDigits_cases s
      omega

/-- The exponent is counted in full, or it does not matter what is left out of it:
the digits are zero, or there are so few of them before the point, if the exponent is
negative, or behind it, if the exponent is positive, that an exponent of `0x10000`
already takes the number out of the range of a double. -/
def CountsAlike (x : Literal) : Prop :=
  x.digits = 0 ∨
    (-655360 < x.exponentIn digitsNat ∧ x.exponentIn digitsNat < 655360) ∨
    (x.exponentIn digitsNat < 0 ∧ x.whole.length ≤ 65212) ∨
    (0 < x.exponentIn digitsNat ∧ (x.fraction.getD []).length ≤ 65227)

instance (x : Literal) : Decidable x.CountsAlike := by
  unfold CountsAlike
  infer_instance

variable {x : Literal}

/-- A literal is below the power of ten with as many zeros as it has digits. -/
theorem Valid.digits_lt (h : x.Valid) :
    x.digits < 10 ^ (x.whole.length + (x.fraction.getD []).length) := by
  have hfraction : (x.fraction.getD []).all isDigit = true := by
    cases hf : x.fraction with
    | none => rfl
    | some f => exact (h.fraction_digits f hf).1
  have hall : (x.whole ++ x.fraction.getD []).all isDigit = true := by
    rw [List.all_append, h.whole_digits, hfraction]
    rfl
  rw [← List.length_append]
  exact digitsNat_lt hall

/-- The double is the same, however the exponent is counted. -/
theorem Valid.ofDecimal_powerIn (h : x.Valid) (hcounts : x.CountsAlike) (negative : Bool) :
    Binary64.ofDecimal negative x.digits (x.powerIn cappedDigits) =
      Binary64.ofDecimal negative x.digits x.power := by
  rcases Nat.eq_zero_or_pos x.digits with hzero | hpos
  · rw [hzero, Binary64.ofDecimal, Binary64.ofDecimal, if_pos rfl, if_pos rfl]
  have hlt := h.digits_lt
  unfold power powerIn
  unfold CountsAlike at hcounts
  rcases h.readable.exponentIn_cases with heq | ⟨hcapped, hfull⟩ | ⟨hcapped, hfull, -⟩
  · rw [heq]
  · -- There are too few digits behind the point to make up for either exponent.
    have hlength : (x.fraction.getD []).length ≤ 65227 := by omega
    rw [Binary64.ofDecimal_of_overflows negative (Binary64.overflows_of_le hpos (by omega)),
      Binary64.ofDecimal_of_overflows negative (Binary64.overflows_of_le hpos (by omega))]
  · -- There are too few digits before the point to make up for either exponent.
    have hlength : x.whole.length ≤ 65212 := by omega
    rw [Binary64.ofDecimal_eq_zero negative hlt (by omega),
      Binary64.ofDecimal_eq_zero negative hlt (by omega)]

/-- A number that is too large stays so in free text, if its exponent is counted in
full or there are few digits behind its point. -/
theorem Readable.overflows_powerIn (h : x.Readable)
    (hlarge : Binary64.Overflows x.digits x.power)
    (hcounts : x.exponentIn digitsNat < 655360 ∨ (x.fraction.getD []).length ≤ 65227) :
    Binary64.Overflows x.digits (x.powerIn cappedDigits) := by
  rcases h.exponentIn_cases with heq | ⟨hcapped, hfull⟩ | ⟨-, -, hle⟩
  · rwa [powerIn, heq]
  · have hlength := hcounts.resolve_left (by omega)
    exact Binary64.overflows_of_le hlarge.digits_pos (by unfold powerIn; omega)
  · -- A negative exponent becomes greater if digits of it are left out.
    exact hlarge.mono (by unfold power powerIn; omega)

/-- A literal stands for one double in free text and in a message. -/
theorem Valid.readDouble?_eq_readNumeral? (h : x.Valid) (hcounts : x.CountsAlike)
    (negative : Bool) : readDouble? (x.signed negative) = readNumeral? (x.signed negative) := by
  rw [readDouble?_signed h, readNumeral?_signed h, h.ofDecimal_powerIn hcounts]

/-! ## A literal that is not counted alike -/

/-- A one with zeros behind it and the exponent `-655360`. -/
def shifted (zeros : Nat) : Literal :=
  { whole := '1' :: List.replicate zeros '0', fraction := none,
    exponent := some ['-', '6', '5', '5', '3', '6', '0'] }

theorem valid_shifted (zeros : Nat) : (shifted zeros).Valid := by
  have hone : isDigit '1' = true := rfl
  have hzero : isDigit '0' = true := rfl
  refine ⟨?_, List.cons_ne_nil _ _, ?_, fun f hf => ?_, Or.inl rfl, fun e he => ?_⟩
  · simp [shifted, hone, hzero]
  · left
    simp only [shifted, List.head?_cons]
    decide
  · cases hf
  · cases he
    exact ⟨['6', '5', '5', '3', '6', '0'], ⟨by decide, by decide⟩, Or.inr (Or.inl rfl)⟩

/-- The digits of this literal are a power of ten. -/
theorem digits_shifted (zeros : Nat) : (shifted zeros).digits = 10 ^ zeros := by
  have hwhole : (shifted zeros).whole ++ (shifted zeros).fraction.getD [] =
      ['1'] ++ List.replicate zeros '0' := List.append_nil _
  rw [digits, hwhole, digitsNat_append, digitsNat_replicate_zero, List.length_replicate]
  exact Nat.one_mul _

/-- In free text the exponent is `-0x10000`: with as many zeros the number is one. -/
theorem readDouble?_shifted {zeros : Nat} (h : zeros = 0x10000) (negative : Bool) :
    readDouble? ((shifted zeros).signed negative) = some (Binary64.ofDecimal negative 1 0) := by
  have hpower : (shifted zeros).powerIn cappedDigits = -(zeros : Int) := by
    rw [h]
    rfl
  rw [readDouble?_signed (valid_shifted zeros), digits_shifted, hpower, Binary64.ofDecimal_ten_pow]

/-- In a message the number is zero. -/
theorem readNumeral?_shifted {zeros : Nat} (h : zeros ≤ 655035) (negative : Bool) :
    readNumeral? ((shifted zeros).signed negative) = some (Binary64.zero negative) := by
  have hpower : (shifted zeros).power = -655360 := rfl
  have hlt : 10 ^ zeros < 10 ^ (zeros + 1) := Nat.pow_lt_pow_right (by decide) (by omega)
  rw [readNumeral?_signed (valid_shifted zeros), digits_shifted, hpower,
    Binary64.ofDecimal_eq_zero negative hlt (by omega)]

/-! ## A large number that is read as a small one -/

/-- A one behind a point and zeros, with the exponent `655360`. -/
def crowded (zeros : Nat) : Literal :=
  { whole := ['0'], fraction := some (List.replicate zeros '0' ++ ['1']),
    exponent := some ['6', '5', '5', '3', '6', '0'] }

theorem valid_crowded (zeros : Nat) : (crowded zeros).Valid := by
  have hone : isDigit '1' = true := rfl
  have hzero : isDigit '0' = true := rfl
  refine ⟨rfl, List.cons_ne_nil _ _, Or.inr rfl, fun f hf => ?_, Or.inl rfl, fun e he => ?_⟩
  · cases hf
    exact ⟨by simp [hone, hzero], by simp⟩
  · cases he
    exact ⟨['6', '5', '5', '3', '6', '0'], ⟨by decide, by decide⟩, Or.inl rfl⟩

/-- The digits of this literal are a one. -/
theorem digits_crowded (zeros : Nat) : (crowded zeros).digits = 1 := by
  have hall : (crowded zeros).whole ++ (crowded zeros).fraction.getD [] =
      List.replicate (zeros + 1) '0' ++ ['1'] := rfl
  rw [digits, hall, digitsNat_append, digitsNat_replicate_zero, Nat.zero_mul]
  rfl

theorem length_fraction_crowded (zeros : Nat) :
    ((crowded zeros).fraction.getD []).length = zeros + 1 := by
  simp [crowded]

/-- The number is a power of ten. -/
theorem power_crowded (zeros : Nat) : (crowded zeros).power = 655359 - zeros := by
  have hexponent : (crowded zeros).exponentIn digitsNat = 655360 := rfl
  rw [power, powerIn, hexponent, length_fraction_crowded]
  omega

/-- In free text the exponent is `0x10000`: with as many digits behind the point the
number is one. -/
theorem readDouble?_crowded {zeros : Nat} (h : zeros = 0xffff) (negative : Bool) :
    readDouble? ((crowded zeros).signed negative) = some (Binary64.ofDecimal negative 1 0) := by
  have hexponent : (crowded zeros).exponentIn cappedDigits = 65536 := rfl
  have hpower : (crowded zeros).powerIn cappedDigits = 0 := by
    rw [powerIn, hexponent, length_fraction_crowded]
    omega
  rw [readDouble?_signed (valid_crowded zeros), digits_crowded, hpower]

end Literal

end MetricRelay
