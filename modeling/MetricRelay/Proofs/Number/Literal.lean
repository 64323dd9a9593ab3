import MetricRelay.Proofs.Number.Digits

/-!
# Decimal literals

Every layout writes a size as a decimal literal: digits, perhaps a point with
digits after it, and perhaps an exponent.  This file names the three parts and
proves what a reader makes of them.  Free text may leave out the digits on one side
of the point and may start with zeros; the literals of a message are more regular.

Main definitions:

- `Literal.Valid` and `Literal.Readable`: the literals of a message and of free text.
- `IsSign`: the signs of free text.

Main results:

- `Literal.Readable.readMagnitude?_chars`: the digits and the power of ten of a literal.
- `Literal.readNumeral?_signed` and `Literal.Readable.readDouble?_append`: the doubles that a
  literal with a sign stands for in a message and in free text.
-/

namespace MetricRelay

/-- The part of a list up to where a property ends. -/
theorem takeWhile_append_of_head? {α : Type} {p : α → Bool} {s t : List α} (hs : s.all p = true)
    (ht : ∀ a ∈ t.head?, p a = false) : (s ++ t).takeWhile p = s := by
  rw [List.takeWhile_append_of_pos (fun a ha => List.all_eq_true.1 hs a ha)]
  cases t with
  | nil => rw [List.takeWhile_nil, List.append_nil]
  | cons a r =>
    rw [List.takeWhile_cons, ht a rfl]
    exact List.append_nil s

/-- The part of a list from where a property ends. -/
theorem dropWhile_append_of_head? {α : Type} {p : α → Bool} {s t : List α} (hs : s.all p = true)
    (ht : ∀ a ∈ t.head?, p a = false) : (s ++ t).dropWhile p = t := by
  rw [List.dropWhile_append_of_pos (fun a ha => List.all_eq_true.1 hs a ha)]
  cases t with
  | nil => rfl
  | cons a r =>
    rw [List.dropWhile_cons, ht a rfl]
    rfl

/-- The signs that may stand before a number in free text, and whether they make it
negative. -/
inductive IsSign : List Char → Bool → Prop
  | none : IsSign [] false
  | minus : IsSign ['-'] true
  | plus : IsSign ['+'] false

/-- A sign is split off from a text that has none of its own. -/
theorem IsSign.splitSign_append {sign s : List Char} {negative : Bool} (h : IsSign sign negative)
    (hs : splitSign s = (false, s)) : splitSign (sign ++ s) = (negative, s) := by
  cases h with
  | none => exact hs
  | minus => rfl
  | plus => rfl

/-- The parts of a decimal literal without sign.  The exponent stands as it does
behind its letter. -/
structure Literal where
  whole : List Char
  fraction : Option (List Char)
  letter : Char := 'e'
  exponent : Option (List Char)

namespace Literal

/-- The text of a literal. -/
def chars (x : Literal) : List Char :=
  x.whole ++ (x.fraction.elim [] ('.' :: ·) ++ x.exponent.elim [] (x.letter :: ·))

/-- The text of a literal behind an optional minus sign. -/
def signed (negative : Bool) (x : Literal) : List Char :=
  (if negative then ['-'] else []) ++ x.chars

/-- All digits before the exponent as one number. -/
def digits (x : Literal) : Nat := digitsNat (x.whole ++ x.fraction.getD [])

/-- The exponent of a literal, its digits as `number` counts them. -/
def exponentIn (number : List Char → Nat) (x : Literal) : Int :=
  (x.exponent.bind (readSigned? number)).getD 0

/-- The power of ten of the last digit, the exponent's digits as `number` counts
them. -/
def powerIn (number : List Char → Nat) (x : Literal) : Int :=
  x.exponentIn number - (x.fraction.getD []).length

/-- The power of ten of the last digit. -/
def power (x : Literal) : Int := x.powerIn digitsNat

/-- The parts are as they have to be: rows of digits, the first one without
leading zeros, and an integer, which may have some. -/
structure Valid (x : Literal) : Prop where
  whole_digits : x.whole.all isDigit = true
  whole_ne_nil : x.whole ≠ []
  whole_head : x.whole.head? ≠ some '0' ∨ x.whole = ['0']
  fraction_digits : ∀ f ∈ x.fraction, f.all isDigit = true ∧ f ≠ []
  letter_e : x.letter = 'e' ∨ x.letter = 'E'
  exponent_integer : ∀ e ∈ x.exponent, ∃ s, (s.all isDigit = true ∧ s ≠ []) ∧
    (e = s ∨ e = '-' :: s ∨ e = '+' :: s)

/-- The parts are as free text may have them: rows of digits, not both of them
empty, and an integer. -/
structure Readable (x : Literal) : Prop where
  whole_digits : x.whole.all isDigit = true
  fraction_digits : ∀ f ∈ x.fraction, f.all isDigit = true
  ne_nil : x.whole ++ x.fraction.getD [] ≠ []
  letter_e : x.letter = 'e' ∨ x.letter = 'E'
  exponent_integer : ∀ e ∈ x.exponent, ∃ s, (s.all isDigit = true ∧ s ≠ []) ∧
    (e = s ∨ e = '-' :: s ∨ e = '+' :: s)

/-- Free text may have any literal of a message. -/
theorem Valid.readable {x : Literal} (h : x.Valid) : x.Readable where
  whole_digits := h.whole_digits
  fraction_digits f hf := (h.fraction_digits f hf).1
  ne_nil := List.append_ne_nil_of_left_ne_nil h.whole_ne_nil _
  letter_e := h.letter_e
  exponent_integer := h.exponent_integer

/-! ## Reading -/

/-- A literal with digits before its point starts with one of them. -/
theorem exists_cons_of_whole {x : Literal} (hdigits : x.whole.all isDigit = true)
    (hne : x.whole ≠ []) : ∃ c r, x.chars = c :: r ∧ isDigit c = true := by
  rcases List.exists_cons_of_ne_nil hne with ⟨c, r, hw⟩
  refine ⟨c, r ++ (x.fraction.elim [] ('.' :: ·) ++ x.exponent.elim [] (x.letter :: ·)), ?_, ?_⟩
  · rw [chars, hw, List.cons_append]
  · rw [hw, List.all_cons, Bool.and_eq_true] at hdigits
    exact hdigits.1

namespace Readable

variable {x : Literal}

/-- The letter of an exponent is not a digit. -/
theorem isDigit_letter (h : x.Readable) : isDigit x.letter = false := by
  rcases h.letter_e with he | he
  · rw [he]
    rfl
  · rw [he]
    rfl

/-- The digits before an exponent end where it starts. -/
theorem isDigit_head?_exponent (h : x.Readable) :
    ∀ c ∈ (x.exponent.elim [] (x.letter :: ·)).head?, isDigit c = false := by
  intro c hc
  cases he : x.exponent with
  | none => simp [he] at hc
  | some e =>
    simp only [he, Option.elim_some, List.head?_cons, Option.mem_def, Option.some.injEq] at hc
    rw [← hc]
    exact h.isDigit_letter

/-- The digits before a fraction end where that starts, or the exponent does. -/
theorem isDigit_head?_fraction (h : x.Readable) :
    ∀ c ∈ (x.fraction.elim [] ('.' :: ·) ++ x.exponent.elim [] (x.letter :: ·)).head?,
      isDigit c = false := by
  intro c hc
  cases hf : x.fraction with
  | none =>
    rw [hf] at hc
    exact h.isDigit_head?_exponent c hc
  | some f =>
    simp only [hf, Option.elim_some, List.cons_append, List.head?_cons, Option.mem_def,
      Option.some.injEq] at hc
    rw [← hc]
    rfl

/-- The exponent of a literal is an integer. -/
theorem readSigned?_exponent (h : x.Readable) (number : List Char → Nat) {e : List Char}
    (he : e ∈ x.exponent) : ∃ n, readSigned? number e = some n := by
  rcases h.exponent_integer e he with ⟨s, ⟨hs, hne⟩, rfl | rfl | rfl⟩
  · exact ⟨_, readSigned?_of_all hs hne⟩
  · exact ⟨_, readSigned?_minus hs hne⟩
  · exact ⟨_, readSigned?_plus hs hne⟩

/-- What stands behind the digits before the exponent is read as the exponent. -/
theorem readExponent?_elim (h : x.Readable) (number : List Char → Nat) :
    readExponent? number (x.exponent.elim [] (x.letter :: ·)) = some (x.exponentIn number) := by
  unfold exponentIn
  cases he : x.exponent with
  | none => rfl
  | some e =>
    rcases h.readSigned?_exponent number (Option.mem_def.2 he) with ⟨n, hn⟩
    simp [readExponent?, h.letter_e, hn]

/-- The digits and the power of ten of a literal. -/
theorem readMagnitude?_chars (h : x.Readable) (number : List Char → Nat) :
    readMagnitude? number x.chars = some (x.digits, x.powerIn number) := by
  have hwhole := takeWhile_append_of_head? h.whole_digits h.isDigit_head?_fraction
  have hrest := dropWhile_append_of_head? h.whole_digits h.isDigit_head?_fraction
  have hne := h.ne_nil
  unfold readMagnitude? chars digits powerIn
  rw [hwhole, hrest]
  cases hf : x.fraction with
  | none =>
    have hnil : x.whole.isEmpty = false := by simpa [hf, List.isEmpty_iff] using hne
    unfold exponentIn
    cases he : x.exponent with
    | none => simp [hnil, readExponent?]
    | some e =>
      rcases h.readSigned?_exponent number (Option.mem_def.2 he) with ⟨n, hn⟩
      have hpoint : x.letter ≠ '.' := by
        rcases h.letter_e with hletter | hletter <;> rw [hletter] <;> decide
      simp [hnil, readExponent?, h.letter_e, hpoint, hn]
  | some f =>
    have hnil : (x.whole.isEmpty && f.isEmpty) = false := by
      simpa [hf, List.isEmpty_iff] using hne
    have hdigits := h.fraction_digits f hf
    have htake := takeWhile_append_of_head? hdigits h.isDigit_head?_exponent
    have hdrop := dropWhile_append_of_head? hdigits h.isDigit_head?_exponent
    simp only [Option.elim_some, List.cons_append, htake, hdrop, hnil,
      Bool.false_eq_true, if_false, h.readExponent?_elim, Option.map_some, Option.getD_some]

/-- A literal starts with a digit or with its point. -/
theorem exists_cons (h : x.Readable) :
    ∃ c r, x.chars = c :: r ∧ (isDigit c = true ∨ c = '.') := by
  by_cases hw : x.whole = []
  · cases hf : x.fraction with
    | none => exact absurd (by rw [hw, hf]; rfl) h.ne_nil
    | some f =>
      refine ⟨'.', f ++ x.exponent.elim [] (x.letter :: ·), ?_, Or.inr rfl⟩
      rw [chars, hw, hf]
      rfl
  · rcases exists_cons_of_whole h.whole_digits hw with ⟨c, r, hchars, hdigit⟩
    exact ⟨c, r, hchars, Or.inl hdigit⟩

/-- The characters of a literal. -/
theorem mem_chars (h : x.Readable) {c : Char} (hc : c ∈ x.chars) :
    isDigit c = true ∨ c ∈ ['.', 'e', 'E', '-', '+'] := by
  have hdigits {s : List Char} (hs : s.all isDigit = true) (hmem : c ∈ s) : isDigit c = true :=
    List.all_eq_true.1 hs c hmem
  rw [chars, List.mem_append, List.mem_append] at hc
  rcases hc with hwhole | hfraction | hexponent
  · exact Or.inl (hdigits h.whole_digits hwhole)
  · cases hf : x.fraction with
    | none => simp [hf] at hfraction
    | some f =>
      rw [hf, Option.elim_some, List.mem_cons] at hfraction
      rcases hfraction with rfl | hmem
      · exact Or.inr (by decide)
      · exact Or.inl (hdigits (h.fraction_digits f hf) hmem)
  · cases he : x.exponent with
    | none => simp [he] at hexponent
    | some e =>
      rw [he, Option.elim_some, List.mem_cons] at hexponent
      rcases hexponent with rfl | hmem
      · rcases h.letter_e with hletter | hletter
        · exact Or.inr (by rw [hletter]; decide)
        · exact Or.inr (by rw [hletter]; decide)
      · rcases h.exponent_integer e he with ⟨s, ⟨hs, -⟩, rfl | rfl | rfl⟩
        · exact Or.inl (hdigits hs hmem)
        · rcases List.mem_cons.1 hmem with rfl | hmem
          · exact Or.inr (by decide)
          · exact Or.inl (hdigits hs hmem)
        · rcases List.mem_cons.1 hmem with rfl | hmem
          · exact Or.inr (by decide)
          · exact Or.inl (hdigits hs hmem)

end Readable

/-- A literal of a message starts with a digit. -/
theorem Valid.exists_cons {x : Literal} (h : x.Valid) :
    ∃ c r, x.chars = c :: r ∧ isDigit c = true :=
  exists_cons_of_whole h.whole_digits h.whole_ne_nil

/-- A text that starts with a digit or a point is not the name of a number. -/
theorem readName?_eq_none (negative : Bool) {c : Char} (r : List Char)
    (h : isDigit c = true ∨ c = '.') : readName? negative (c :: r) = none := by
  have hlower : lowerAscii c = c := by
    rcases h with h | rfl
    · have hupper : ('A' ≤ c && c ≤ 'Z') = false := by
        rw [isDigit_iff] at h
        simp only [Bool.and_eq_false_iff, decide_eq_false_iff_not, Char.le_def,
          UInt32.le_iff_toNat_le]
        left
        show ¬ 65 ≤ c.toNat
        omega
      rw [lowerAscii, hupper]
      rfl
    · rfl
  have hne (d : Char) (hd : isDigit d = false) (hpoint : d ≠ '.') : c ≠ d := by
    rcases h with h | rfl
    · exact ne_of_isDigit h hd
    · exact hpoint.symm
  simp [readName?, hlower, hne 'n' rfl (by decide), hne 'i' rfl (by decide)]

/-- A literal of free text has no sign of its own. -/
theorem Readable.splitSign_chars {x : Literal} (h : x.Readable) :
    splitSign x.chars = (false, x.chars) := by
  rcases h.exists_cons with ⟨c, r, hchars, hfirst⟩
  rw [hchars]
  rcases hfirst with hdigit | rfl
  · exact splitSign_of_isDigit hdigit
  · rfl

/-- The double that a literal with a sign stands for in free text. -/
theorem Readable.readDouble?_append {x : Literal} (h : x.Readable) {sign : List Char}
    {negative : Bool} (hsign : IsSign sign negative) :
    readDouble? (sign ++ x.chars) =
      some (Binary64.ofDecimal negative x.digits (x.powerIn cappedDigits)) := by
  rcases h.exists_cons with ⟨c, r, hchars, hfirst⟩
  have hname := readName?_eq_none negative r hfirst
  rw [← hchars] at hname
  simp [readDouble?, hsign.splitSign_append h.splitSign_chars, hname, h.readMagnitude?_chars]

/-! ## Literals with an optional minus sign -/

/-- The characters of a literal with an optional minus sign. -/
theorem Valid.mem_signed {x : Literal} (h : x.Valid) {negative : Bool} {c : Char}
    (hc : c ∈ x.signed negative) : isDigit c = true ∨ c ∈ ['.', 'e', 'E', '-', '+'] := by
  rw [signed, List.mem_append] at hc
  rcases hc with hsign | hc
  · cases negative with
    | false => cases hsign
    | true =>
      rw [List.mem_singleton.1 hsign]
      exact Or.inr (by decide)
  · exact h.readable.mem_chars hc

/-- The sign of a literal is split off. -/
theorem Valid.splitSign_signed {x : Literal} (h : x.Valid) (negative : Bool) :
    splitSign (x.signed negative) = (negative, x.chars) := by
  cases negative with
  | false => exact h.readable.splitSign_chars
  | true => rfl

/-- The double that a literal with an optional minus sign stands for in a
message. -/
theorem readNumeral?_signed {x : Literal} (h : x.Valid) (negative : Bool) :
    readNumeral? (x.signed negative) =
      some (Binary64.ofDecimal negative x.digits x.power) := by
  simp [readNumeral?, h.splitSign_signed, h.readable.readMagnitude?_chars, power]

/-- The double that a literal with an optional minus sign stands for in free
text. -/
theorem readDouble?_signed {x : Literal} (h : x.Valid) (negative : Bool) :
    readDouble? (x.signed negative) =
      some (Binary64.ofDecimal negative x.digits (x.powerIn cappedDigits)) := by
  cases negative with
  | false => exact h.readable.readDouble?_append .none
  | true => exact h.readable.readDouble?_append .minus

/-- Without an exponent it does not matter how digits are counted. -/
theorem powerIn_of_exponent_none {x : Literal} (h : x.exponent = none)
    (number : List Char → Nat) : x.powerIn number = x.power := by
  rw [power, powerIn, powerIn, exponentIn, exponentIn, h]
  rfl

end Literal

/-! ## Integers -/

/-- The literal of a natural number. -/
def natLiteral (n : Nat) : Literal := { whole := natChars n, fraction := none, exponent := none }

/-- A natural number is a valid literal. -/
theorem valid_natLiteral (n : Nat) : (natLiteral n).Valid := by
  refine ⟨all_isDigit_natChars n, natChars_ne_nil n, ?_, fun f hf => ?_, Or.inl rfl,
    fun e he => ?_⟩
  · rcases Nat.eq_zero_or_pos n with rfl | hpos
    · right
      exact natChars_of_lt (by decide)
    · left
      exact head?_natChars hpos
  · cases hf
  · cases he

/-- An integer is written as a literal with a sign. -/
theorem intChars_eq_signed (n : Int) :
    ∃ negative size, intChars n = (natLiteral size).signed negative := by
  cases n with
  | ofNat n =>
    refine ⟨false, n, ?_⟩
    simp [intChars, Literal.signed, natLiteral, Literal.chars]
  | negSucc n =>
    refine ⟨true, n + 1, ?_⟩
    simp [intChars, Literal.signed, natLiteral, Literal.chars]

end MetricRelay
