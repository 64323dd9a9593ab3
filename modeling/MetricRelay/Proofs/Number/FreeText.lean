import MetricRelay.Proofs.Number.Exponents

/-!
# Readings as free text

Free text that is read as a double is the name of a double that is not finite or a
decimal literal, with an optional sign before it.  Both are read as such, and
nothing else is read at all.

Main definitions:

- `IsName`: the names of the doubles that are not finite.

Main results:

- `IsName.readDouble?_append`: a name is read as a double that is not finite.
- `exists_literal_of_readMagnitude?`: what is read as a size is a literal.
- `exists_literal_of_readDouble?`: what is read as a finite double is a literal
  with a sign.
-/

namespace MetricRelay

/-! ## Names -/

/-- A name of a double that is not finite, in any case. -/
def IsName (s : List Char) : Prop :=
  s.map lowerAscii ∈ ["nan".toList, "inf".toList, "infinity".toList]

instance (s : List Char) : Decidable (IsName s) := List.instDecidableMemOfLawfulBEq _ _

section Names

variable {s sign : List Char} {negative : Bool}

/-- A name is read as a number that is not finite. -/
theorem IsName.exists_readName? (h : IsName s) (negative : Bool) :
    ∃ y, readName? negative s = some y ∧ y.isFinite = false := by
  unfold IsName at h
  simp only [List.mem_cons, List.not_mem_nil, or_false] at h
  rcases h with hname | hname
  · exact ⟨.nan, if_pos hname, rfl⟩
  · have hnan : s.map lowerAscii ≠ "nan".toList := by
      rcases hname with hname | hname <;> rw [hname] <;> decide
    exact ⟨.infinite negative, (if_neg hnan).trans (if_pos hname), rfl⟩

/-- Only doubles that are not finite have names. -/
theorem isFinite_of_readName? {y : Binary64} (h : readName? negative s = some y) :
    y.isFinite = false := by
  unfold readName? at h
  simp only at h
  split at h
  · cases h
    rfl
  · split at h
    · cases h
      rfl
    · cases h

/-- A name has no sign of its own. -/
theorem IsName.splitSign_eq (h : IsName s) : splitSign s = (false, s) := by
  unfold splitSign
  split
  · simp [IsName, lowerAscii] at h
  · simp [IsName, lowerAscii] at h
  · rfl

/-- A name with a sign is read as a double that is not finite. -/
theorem IsName.readDouble?_append (h : IsName s) (hsign : IsSign sign negative) :
    ∃ y, readDouble? (sign ++ s) = some y ∧ y.isFinite = false := by
  rcases h.exists_readName? negative with ⟨y, hread, hy⟩
  refine ⟨y, ?_, hy⟩
  simp [readDouble?, hsign.splitSign_append h.splitSign_eq, hread]

end Names

/-! ## What is read -/

/-- A text is a sign and the rest. -/
theorem exists_isSign_splitSign (s : List Char) :
    ∃ sign, IsSign sign (splitSign s).1 ∧ s = sign ++ (splitSign s).2 := by
  unfold splitSign
  split
  · exact ⟨['-'], .minus, rfl⟩
  · exact ⟨['+'], .plus, rfl⟩
  · exact ⟨[], .none, rfl⟩

section Literals

variable {number : List Char → Nat} {s : List Char}

/-- What is read as digits are digits, at least one. -/
theorem all_isDigit_of_readDigits? {n : Nat} (h : readDigits? number s = some n) :
    s.all isDigit = true ∧ s ≠ [] := by
  unfold readDigits? at h
  rw [Option.ite_none_left_eq_some] at h
  simpa [and_comm] using h.1

/-- What is read as an integer is a row of digits, perhaps with a sign. -/
theorem exists_digits_of_readSigned? {n : Int} (h : readSigned? number s = some n) :
    ∃ t, (t.all isDigit = true ∧ t ≠ []) ∧ (s = t ∨ s = '-' :: t ∨ s = '+' :: t) := by
  rcases exists_isSign_splitSign s with ⟨sign, hsign, hs⟩
  have hdigits : (splitSign s).2.all isDigit = true ∧ (splitSign s).2 ≠ [] := by
    cases hread : readDigits? number (splitSign s).2 with
    | none => simp [readSigned?, hread] at h
    | some n => exact all_isDigit_of_readDigits? hread
  refine ⟨(splitSign s).2, hdigits, ?_⟩
  generalize (splitSign s).2 = t at hs
  generalize (splitSign s).1 = negative at hsign
  cases hsign with
  | none => exact Or.inl hs
  | minus => exact Or.inr (Or.inl hs)
  | plus => exact Or.inr (Or.inr hs)

/-- What is read as an exponent is nothing, or a letter and an integer. -/
theorem exists_exponent_of_readExponent? {e : Int} (h : readExponent? number s = some e) :
    ∃ letter exponent, s = Option.elim exponent [] (letter :: ·) ∧
      (letter = 'e' ∨ letter = 'E') ∧ ∀ e ∈ exponent, ∃ t, (t.all isDigit = true ∧ t ≠ []) ∧
        (e = t ∨ e = '-' :: t ∨ e = '+' :: t) := by
  cases s with
  | nil => exact ⟨'e', none, rfl, Or.inl rfl, fun e he => by cases he⟩
  | cons c r =>
    simp only [readExponent?, Option.ite_none_right_eq_some] at h
    refine ⟨c, some r, rfl, h.1, fun e he => ?_⟩
    cases he
    exact exists_digits_of_readSigned? h.2

/-- What is read as a size is a literal. -/
theorem exists_literal_of_readMagnitude? {m : Nat × Int} (h : readMagnitude? number s = some m) :
    ∃ x : Literal, x.Readable ∧ x.chars = s := by
  have hwhole : (s.takeWhile isDigit).all isDigit = true := List.all_takeWhile
  have hsplit : s.takeWhile isDigit ++ s.dropWhile isDigit = s := List.takeWhile_append_dropWhile
  unfold readMagnitude? at h
  generalize s.takeWhile isDigit = whole at *
  generalize s.dropWhile isDigit = rest at *
  simp only [Option.ite_none_left_eq_some, Option.map_eq_some_iff] at h
  split at h
  · rename_i r
    rcases h with ⟨hne, e, hexponent, -⟩
    rcases exists_exponent_of_readExponent? hexponent with ⟨letter, exponent, hr, hletter, hinteger⟩
    refine ⟨⟨whole, some (r.takeWhile isDigit), letter, exponent⟩,
      ⟨hwhole, fun f hf => ?_, ?_, hletter, hinteger⟩, ?_⟩
    · cases hf
      exact List.all_takeWhile
    · simpa using hne
    · have hrest : r.takeWhile isDigit ++ exponent.elim [] (letter :: ·) = r := by
        rw [← hr]
        exact List.takeWhile_append_dropWhile
      rw [← hsplit]
      exact congrArg (fun r => whole ++ '.' :: r) hrest
  · rcases h with ⟨hne, e, hexponent, -⟩
    rcases exists_exponent_of_readExponent? hexponent with ⟨letter, exponent, hr, hletter, hinteger⟩
    refine ⟨⟨whole, none, letter, exponent⟩,
      ⟨hwhole, fun f hf => (by cases hf), ?_, hletter, hinteger⟩, ?_⟩
    · simpa using hne
    · rw [← hsplit]
      exact congrArg (whole ++ ·) hr.symm

end Literals

/-- What is read as a finite double is a literal with a sign. -/
theorem exists_literal_of_readDouble? {s : List Char} {y : Binary64} (h : readDouble? s = some y)
    (hy : y.isFinite = true) :
    ∃ sign negative, ∃ x : Literal, IsSign sign negative ∧ x.Readable ∧ s = sign ++ x.chars ∧
      y = Binary64.ofDecimal negative x.digits (x.powerIn cappedDigits) := by
  rcases exists_isSign_splitSign s with ⟨sign, hsign, hs⟩
  unfold readDouble? at h
  cases hname : readName? (splitSign s).1 (splitSign s).2 with
  | some z =>
    have hz := isFinite_of_readName? hname
    simp only [hname, Option.some.injEq] at h
    rw [← h, hz] at hy
    cases hy
  | none =>
    simp only [hname, Option.map_eq_some_iff] at h
    rcases h with ⟨m, hmagnitude, hvalue⟩
    rcases exists_literal_of_readMagnitude? hmagnitude with ⟨x, hx, hchars⟩
    rw [← hchars, hx.readMagnitude?_chars, Option.some.injEq] at hmagnitude
    subst hmagnitude
    rw [← hchars] at hs
    exact ⟨sign, (splitSign s).1, x, hsign, hx, hs, hvalue.symm⟩

end MetricRelay
