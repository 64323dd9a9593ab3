import Mathlib.Tactic.Ring
import MetricRelay.Number.Decimal
import MetricRelay.Number.Literal

/-!
# Whole numbers as texts

A natural number is written with the fewest digits and an integer with a sign
before them.  Reading a row of digits is evaluation in base ten, so reading
undoes writing, and zeros behind a row of digits multiply by a power of ten.

Main results:

- `digitsNat_append`: the number of two rows of digits, one behind the other.
- `cappedDigits_cases`: when it matters that digits are left out.
- `digitsNat_natChars`: the digits of a natural number stand for it.
- `readInt?_intChars` and `readCount?_intChars`: an integer and a total are
  read back from their texts.
- `head?_natChars`: the digits of a positive number do not start with zero.
-/

namespace MetricRelay

/-! ## Single digits -/

/-- The decimal digits stand one after the other, from zero on. -/
theorem decimalDigit_toNat (n : Nat) : (decimalDigit n).toNat = 0x30 + n % 10 := by
  have hlt : n % 10 < 10 := Nat.mod_lt _ (by decide)
  unfold decimalDigit
  generalize n % 10 = d at hlt
  match d, hlt with
  | 0, _ | 1, _ | 2, _ | 3, _ | 4, _ | 5, _ | 6, _ | 7, _ | 8, _ | 9, _ => rfl

/-- The digits are the characters from `0x30` to `0x39`. -/
theorem isDigit_iff (c : Char) : isDigit c = true ↔ 0x30 ≤ c.toNat ∧ c.toNat ≤ 0x39 := by
  simp only [isDigit, Bool.and_eq_true, decide_eq_true_eq, Char.le_def, UInt32.le_iff_toNat_le]
  exact Iff.rfl

/-- Decimal digits are digits. -/
theorem isDigit_decimalDigit (n : Nat) : isDigit (decimalDigit n) = true := by
  have hlt : n % 10 < 10 := Nat.mod_lt _ (by decide)
  rw [isDigit_iff, decimalDigit_toNat]
  omega

/-- Decimal digits have their own values. -/
@[simp]
theorem digitValue_decimalDigit (n : Nat) : digitValue (decimalDigit n) = n % 10 := by
  rw [digitValue, decimalDigit_toNat]
  omega

/-- A character that is no digit, for one that is given by a digit's text. -/
theorem ne_of_isDigit {c d : Char} (hc : isDigit c = true) (hd : isDigit d = false) : c ≠ d := by
  intro h
  rw [h, hd] at hc
  cases hc

/-! ## Rows of digits -/

/-- Digits that were read before count for a power of ten. -/
theorem foldDigits_eq (start : Nat) (s : List Char) :
    foldDigits start s = start * 10 ^ s.length + digitsNat s := by
  induction s generalizing start with
  | nil => simp [foldDigits, digitsNat]
  | cons c r ih =>
    have hstart : foldDigits start (c :: r) = foldDigits (start * 10 + digitValue c) r := rfl
    have hzero : digitsNat (c :: r) = foldDigits (0 * 10 + digitValue c) r := rfl
    rw [hstart, hzero, ih, ih (0 * 10 + digitValue c), List.length_cons, pow_succ]
    ring

/-- Two rows of digits, one behind the other. -/
theorem digitsNat_append (s t : List Char) :
    digitsNat (s ++ t) = digitsNat s * 10 ^ t.length + digitsNat t := by
  rw [← foldDigits_eq]
  simp [digitsNat, foldDigits, List.foldl_append]

/-- A row of digits is below the power of ten with as many zeros. -/
theorem digitsNat_lt {s : List Char} (h : s.all isDigit = true) : digitsNat s < 10 ^ s.length := by
  induction s with
  | nil => decide
  | cons c r ih =>
    rw [List.all_cons, Bool.and_eq_true] at h
    have hdigit : digitsNat [c] ≤ 9 := by
      have hrange := (isDigit_iff c).1 h.1
      simp only [digitsNat, foldDigits, List.foldl_cons, List.foldl_nil, digitValue]
      omega
    have hrest := ih h.2
    rw [← List.singleton_append, digitsNat_append, List.length_append, List.length_singleton,
      pow_add, pow_one]
    have hmul := Nat.mul_le_mul_right (10 ^ r.length) hdigit
    omega

/-- Zeros alone are zero. -/
theorem digitsNat_replicate_zero (n : Nat) : digitsNat (List.replicate n '0') = 0 := by
  induction n with
  | zero => rfl
  | succ n ih =>
    have hcons : List.replicate (n + 1) '0' = ['0'] ++ List.replicate n '0' := rfl
    rw [hcons, digitsNat_append, ih]
    simp [digitsNat, foldDigits, digitValue]

/-! ## Rows of digits that are not counted in full -/

/-- More digits make a number no smaller. -/
theorem le_foldDigits (start : Nat) (s : List Char) : start ≤ foldDigits start s := by
  rw [foldDigits_eq]
  exact Nat.le_add_right_of_le (Nat.le_mul_of_pos_right start (Nat.pow_pos (by decide)))

/-- A greater start makes a number no smaller. -/
theorem foldDigits_mono {start start' : Nat} (h : start ≤ start') (s : List Char) :
    foldDigits start s ≤ foldDigits start' s := by
  rw [foldDigits_eq, foldDigits_eq start']
  exact Nat.add_le_add_right (Nat.mul_le_mul_right _ h) _

/-- The digits of an exponent in free text, after the digits read already. -/
def foldCapped (start : Nat) (s : List Char) : Nat :=
  s.foldl (fun n c => if n < 0x10000 then n * 10 + digitValue c else n) start

theorem foldCapped_cons (start : Nat) (c : Char) (r : List Char) :
    foldCapped start (c :: r) =
      foldCapped (if start < 0x10000 then start * 10 + digitValue c else start) r :=
  rfl

/-- Digits that may be left out make a number no smaller. -/
theorem le_foldCapped (start : Nat) (s : List Char) : start ≤ foldCapped start s := by
  induction s generalizing start with
  | nil => exact Nat.le_refl start
  | cons c r ih =>
    rw [foldCapped_cons]
    refine Nat.le_trans ?_ (ih _)
    split <;> omega

/-- Digits that are left out make the number smaller. -/
theorem foldCapped_le (start : Nat) (s : List Char) : foldCapped start s ≤ foldDigits start s := by
  induction s generalizing start with
  | nil => exact Nat.le_refl start
  | cons c r ih =>
    have hfold : foldDigits start (c :: r) = foldDigits (start * 10 + digitValue c) r := rfl
    rw [foldCapped_cons, hfold]
    refine Nat.le_trans (ih _) (foldDigits_mono ?_ r)
    split <;> omega

/-- From any start, either all digits are counted, or digits were left out behind a
number that was large already. -/
theorem foldCapped_cases (start : Nat) (s : List Char) :
    foldCapped start s = foldDigits start s ∨
      0x10000 ≤ foldCapped start s ∧ 655360 ≤ foldDigits start s := by
  induction s generalizing start with
  | nil => exact Or.inl rfl
  | cons c r ih =>
    have hfold : foldDigits start (c :: r) = foldDigits (start * 10 + digitValue c) r := rfl
    rw [foldCapped_cons, hfold]
    by_cases hsmall : start < 0x10000
    · rw [if_pos hsmall]
      exact ih _
    · have hcapped := le_foldCapped start r
      have hfull := le_foldDigits (start * 10 + digitValue c) r
      rw [if_neg hsmall]
      exact Or.inr ⟨by omega, by omega⟩

/-- What is counted is at most the whole row. -/
theorem cappedDigits_le (s : List Char) : cappedDigits s ≤ digitsNat s :=
  foldCapped_le 0 s

/-- Only where both numbers are large, it matters that digits are left out. -/
theorem cappedDigits_cases (s : List Char) :
    cappedDigits s = digitsNat s ∨ 0x10000 ≤ cappedDigits s ∧ 655360 ≤ digitsNat s :=
  foldCapped_cases 0 s

/-! ## Natural numbers -/

theorem natChars_of_lt {n : Nat} (h : n < 10) : natChars n = [decimalDigit n] := by
  rw [natChars, digitsReversed, if_pos h, List.reverse_singleton]

/-- The last digit stands behind the others. -/
theorem natChars_of_ge {n : Nat} (h : 10 ≤ n) :
    natChars n = natChars (n / 10) ++ [decimalDigit n] := by
  rw [natChars, digitsReversed, if_neg (by omega), List.reverse_cons]
  rfl

/-- A number is written with at least one digit. -/
theorem natChars_ne_nil (n : Nat) : natChars n ≠ [] := by
  by_cases h : n < 10
  · simp [natChars_of_lt h]
  · simp [natChars_of_ge (by omega : 10 ≤ n)]

/-- A natural number is written with digits alone. -/
theorem all_isDigit_natChars (n : Nat) : (natChars n).all isDigit = true := by
  induction n using Nat.strongRecOn with
  | ind n ih =>
    by_cases h : n < 10
    · simp [natChars_of_lt h, isDigit_decimalDigit]
    · rw [natChars_of_ge (by omega), List.all_append, ih (n / 10) (by omega)]
      simp [isDigit_decimalDigit]

theorem isDigit_of_mem_natChars {n : Nat} {c : Char} (h : c ∈ natChars n) : isDigit c = true :=
  List.all_eq_true.1 (all_isDigit_natChars n) c h

/-- The digits of a natural number stand for it. -/
@[simp]
theorem digitsNat_natChars (n : Nat) : digitsNat (natChars n) = n := by
  induction n using Nat.strongRecOn with
  | ind n ih =>
    by_cases h : n < 10
    · rw [natChars_of_lt h]
      simp [digitsNat, foldDigits]
      omega
    · rw [natChars_of_ge (by omega), digitsNat_append, ih (n / 10) (by omega)]
      simp [digitsNat, foldDigits]
      omega

/-- The digits of a positive number do not start with zero. -/
theorem head?_natChars {n : Nat} (h : 0 < n) : (natChars n).head? ≠ some '0' := by
  induction n using Nat.strongRecOn with
  | ind n ih =>
    by_cases hn : n < 10
    · rw [natChars_of_lt hn]
      intro hzero
      have hval : digitValue (decimalDigit n) = digitValue '0' := by
        simp only [List.head?_cons, Option.some.injEq] at hzero
        rw [hzero]
      rw [digitValue_decimalDigit] at hval
      have : digitValue '0' = 0 := rfl
      omega
    · rw [natChars_of_ge (by omega)]
      have hrest := ih (n / 10) (by omega) (by omega)
      cases hs : natChars (n / 10) with
      | nil => exact absurd hs (natChars_ne_nil _)
      | cons c r =>
        rw [hs] at hrest
        exact hrest

theorem readDigits?_of_all {number : List Char → Nat} {s : List Char} (h : s.all isDigit = true)
    (hne : s ≠ []) : readDigits? number s = some (number s) := by
  simp [readDigits?, h, hne]

/-! ## Integers -/

/-- A text that starts with a digit has no sign. -/
theorem splitSign_of_isDigit {c : Char} {r : List Char} (h : isDigit c = true) :
    splitSign (c :: r) = (false, c :: r) := by
  have hminus : c ≠ '-' := ne_of_isDigit h rfl
  have hplus : c ≠ '+' := ne_of_isDigit h rfl
  unfold splitSign
  split
  · rename_i heq
    exact absurd (List.cons.inj heq).1 hminus
  · rename_i heq
    exact absurd (List.cons.inj heq).1 hplus
  · rfl

/-- Digits have no sign. -/
theorem splitSign_of_all {s : List Char} (h : s.all isDigit = true) : splitSign s = (false, s) := by
  cases s with
  | nil => rfl
  | cons c r =>
    rw [List.all_cons, Bool.and_eq_true] at h
    exact splitSign_of_isDigit h.1

section Signed

variable {number : List Char → Nat} {s : List Char} (h : s.all isDigit = true) (hne : s ≠ [])
include h hne

theorem readSigned?_of_all : readSigned? number s = some (number s : Int) := by
  simp [readSigned?, splitSign_of_all h, readDigits?_of_all h hne]

theorem readSigned?_minus : readSigned? number ('-' :: s) = some (-(number s : Int)) := by
  simp [readSigned?, splitSign, readDigits?_of_all h hne]

theorem readSigned?_plus : readSigned? number ('+' :: s) = some (number s : Int) := by
  simp [readSigned?, splitSign, readDigits?_of_all h hne]

end Signed

/-- A natural number is read back. -/
theorem readInt?_natChars (n : Nat) : readInt? (natChars n) = some (n : Int) := by
  rw [readInt?, readSigned?_of_all (all_isDigit_natChars n) (natChars_ne_nil n), digitsNat_natChars]

/-- A negative number is read back. -/
theorem readInt?_neg_natChars (n : Nat) : readInt? ('-' :: natChars n) = some (-(n : Int)) := by
  rw [readInt?, readSigned?_minus (all_isDigit_natChars n) (natChars_ne_nil n), digitsNat_natChars]

theorem readInt?_plus_natChars (n : Nat) : readInt? ('+' :: natChars n) = some (n : Int) := by
  rw [readInt?, readSigned?_plus (all_isDigit_natChars n) (natChars_ne_nil n), digitsNat_natChars]

/-- An integer is read back from its text. -/
@[simp]
theorem readInt?_intChars (n : Int) : readInt? (intChars n) = some n := by
  cases n with
  | ofNat n => exact readInt?_natChars n
  | negSucc n =>
    rw [intChars, readInt?_neg_natChars]
    rfl

/-- A total is read back from its text. -/
@[simp]
theorem readCount?_intChars (n : Count) : readCount? (intChars n.val) = some n := by
  simp [readCount?]

end MetricRelay
