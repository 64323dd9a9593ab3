import MetricRelay.Json.Record
import MetricRelay.Proofs.Json.Strings
import MetricRelay.Proofs.Number.Literal

/-!
# Written scalars are read back

A reader that is given a written text takes all of it and leaves what follows.
For a number this needs that what follows does not go on with it, which holds of
everything that may stand behind a value: a comma, a bracket, a blank, or the end.

Main definitions:

- `Ends`: what may stand behind a value.
- `Reads`: a reader takes a text, whatever ends it.

Main results:

- `reads_quote`: a string is a token.
- `reads_literal`: a decimal literal with an optional minus sign is a token.
-/

namespace MetricRelay.Json

open Utf8 (Bytes encodeChars)

/-! ## Readers -/

/-- A byte that could go on with a number. -/
def isNumberByte (b : UInt8) : Bool :=
  isDigitByte b || b = byte '.' || b = byte 'e' || b = byte 'E'

/-- What follows does not go on with a number. -/
def Ends (r : Bytes) : Prop := ∀ b ∈ r.head?, isNumberByte b = false

/-- A reader takes a text as `x`, whatever ends it. -/
def Reads {α : Type} (read : Bytes → Option (α × Bytes)) (text : List Char) (x : α) : Prop :=
  ∀ r, Ends r → read (encodeChars text ++ r) = some (x, r)

/-- A reader does not care about blanks in front. -/
def SkipsBlanks {α : Type} (read : Bytes → Option (α × Bytes)) : Prop :=
  ∀ b s, isBlankByte b = true → read (b :: s) = read s

/-- Characters of the blanks that a writer puts between tokens. -/
def IsBlank (s : List Char) : Prop := ∀ c ∈ s, c = ' ' ∨ c = '\n'

theorem ends_nil : Ends [] := fun _ h => by cases h

theorem ends_cons {b : UInt8} (h : isNumberByte b = false) (r : Bytes) : Ends (b :: r) := by
  intro c hc
  cases hc
  exact h

theorem isBlank_nil : IsBlank [] := fun _ h => by cases h

/-- Blanks before a token are skipped. -/
theorem skipsBlanks_token? : SkipsBlanks token? := by
  intro b s hb
  rw [token?, token?, List.dropWhile_cons, hb]
  rfl

/-- Blanks in front of a text are skipped. -/
theorem SkipsBlanks.read_append {α : Type} {read : Bytes → Option (α × Bytes)}
    (h : SkipsBlanks read) {blanks : List Char} (hblanks : IsBlank blanks) (s : Bytes) :
    read (encodeChars blanks ++ s) = read s := by
  induction blanks with
  | nil => rfl
  | cons c r ih =>
    have hrest := ih fun d hd => hblanks d (List.mem_cons_of_mem _ hd)
    rcases hblanks c List.mem_cons_self with rfl | rfl
    · rw [encodeChars_cons_of_lt (by decide), List.cons_append, h _ _ rfl, hrest]
    · rw [encodeChars_cons_of_lt (by decide), List.cons_append, h _ _ rfl, hrest]

/-- A text with blanks before it is read alike. -/
theorem Reads.blanks {α : Type} {read : Bytes → Option (α × Bytes)} {text : List Char} {x : α}
    (hread : Reads read text x) (h : SkipsBlanks read) {blanks : List Char}
    (hblanks : IsBlank blanks) : Reads read (blanks ++ text) x := by
  intro r hr
  rw [Utf8.encodeChars_append, List.append_assoc, h.read_append hblanks]
  exact hread r hr

/-! ## Digits -/

/-- Digits are of ASCII. -/
theorem toNat_lt_of_isDigit {c : Char} (h : isDigit c = true) : c.toNat < 0x80 := by
  have := (isDigit_iff c).1 h
  omega

/-- A digit is written as the byte of a digit. -/
theorem isDigitByte_byte {c : Char} (h : isDigit c = true) : isDigitByte (byte c) = true := by
  have hrange := (isDigit_iff c).1 h
  rw [isDigitByte, toNat_byte (by omega), Bool.and_eq_true, decide_eq_true_eq, decide_eq_true_eq]
  exact hrange

/-- Digits are written as bytes of digits. -/
theorem all_isDigitByte {s : List Char} (h : s.all isDigit = true) :
    (s.map byte).all isDigitByte = true := by
  rw [List.all_map, List.all_eq_true]
  exact fun c hc => isDigitByte_byte (List.all_eq_true.1 h c hc)

/-- Digits are read up to what is no digit. -/
theorem readDigits?_map_byte {s : List Char} {r : Bytes} (hs : s.all isDigit = true) (hne : s ≠ [])
    (hr : ∀ b ∈ r.head?, isDigitByte b = false) :
    readDigits? (s.map byte ++ r) = some (s.map byte, r) := by
  have hempty : (s.map byte).isEmpty = false := by
    simpa [List.isEmpty_iff] using hne
  rw [readDigits?, takeWhile_append_of_head? (all_isDigitByte hs) hr,
    dropWhile_append_of_head? (all_isDigitByte hs) hr, hempty]
  rfl

/-! ## Decimal literals -/

/-- A decimal literal has characters of ASCII only. -/
theorem toNat_lt_of_mem_signed {x : Literal} (h : x.Valid) {negative : Bool} {c : Char}
    (hc : c ∈ x.signed negative) : c.toNat < 0x80 := by
  rcases h.mem_signed hc with hdigit | hother
  · exact toNat_lt_of_isDigit hdigit
  · have hall : (['.', 'e', 'E', '-', '+'].all fun d => decide (d.toNat < 0x80)) = true := rfl
    exact of_decide_eq_true (List.all_eq_true.1 hall c hother)

/-- What ends a number does not start with a digit. -/
theorem Ends.isDigitByte {r : Bytes} (h : Ends r) : ∀ b ∈ r.head?, isDigitByte b = false := by
  intro b hb
  have hnumber := h b hb
  simp only [isNumberByte, Bool.or_eq_false_iff] at hnumber
  exact hnumber.1.1.1

/-- The letter of an exponent is either case of one. -/
theorem byte_letter {x : Literal} (h : x.Valid) :
    byte x.letter = byte 'e' ∨ byte x.letter = byte 'E' := by
  rcases h.letter_e with hletter | hletter
  · rw [hletter]
    exact Or.inl rfl
  · rw [hletter]
    exact Or.inr rfl

theorem isDigitByte_letter {x : Literal} (h : x.Valid) : isDigitByte (byte x.letter) = false := by
  rcases byte_letter h with hletter | hletter <;> rw [hletter] <;> rfl

/-- The exponent of a literal is read, if it has one. -/
theorem readExponentPart?_exponent {x : Literal} (h : x.Valid) {r : Bytes} (hr : Ends r) :
    readExponentPart? ((x.exponent.elim [] (x.letter :: ·)).map byte ++ r) =
      some ((x.exponent.elim [] (x.letter :: ·)).map byte, r) := by
  cases he : x.exponent with
  | none =>
    rw [Option.elim_none, List.map_nil, List.nil_append]
    cases r with
    | nil => rfl
    | cons b t =>
      have hb := hr b rfl
      simp only [isNumberByte, Bool.or_eq_false_iff, decide_eq_false_iff_not] at hb
      rw [readExponentPart?, if_neg (not_or_intro hb.1.2 hb.2)]
  | some e =>
    rw [Option.elim_some, List.map_cons, List.cons_append, readExponentPart?, if_pos (byte_letter h)]
    rcases h.exponent_integer e he with ⟨s, ⟨hs, hne⟩, rfl | rfl | rfl⟩
    · rcases List.exists_cons_of_ne_nil hne with ⟨c, t, rfl⟩
      have hdigit : isDigit c = true := List.all_eq_true.1 hs c List.mem_cons_self
      have hplus : byte c ≠ byte '+' := fun h => by
        have := isDigitByte_byte hdigit
        rw [h] at this
        cases this
      have hminus : byte c ≠ byte '-' := fun h => by
        have := isDigitByte_byte hdigit
        rw [h] at this
        cases this
      have hsign : readSign ((c :: t).map byte ++ r) = ([], (c :: t).map byte ++ r) := by
        rw [List.map_cons, List.cons_append, readSign, if_neg (not_or_intro hplus hminus)]
      simp only [hsign, readDigits?_map_byte hs hne hr.isDigitByte, Option.map_some,
        List.nil_append]
    · have hsign : readSign (('-' :: s).map byte ++ r) = ([byte '-'], s.map byte ++ r) := rfl
      simp only [hsign, readDigits?_map_byte hs hne hr.isDigitByte, Option.map_some]
      rfl
    · have hsign : readSign (('+' :: s).map byte ++ r) = ([byte '+'], s.map byte ++ r) := rfl
      simp only [hsign, readDigits?_map_byte hs hne hr.isDigitByte, Option.map_some]
      rfl

/-- The exponent of a literal, or what follows it, does not go on with digits. -/
theorem isDigitByte_head?_exponent {x : Literal} (h : x.Valid) {r : Bytes} (hr : Ends r) :
    ∀ b ∈ ((x.exponent.elim [] (x.letter :: ·)).map byte ++ r).head?, isDigitByte b = false := by
  cases he : x.exponent with
  | none => exact hr.isDigitByte
  | some e =>
    intro b hb
    cases hb
    exact isDigitByte_letter h

/-- The fraction of a literal is read up to the exponent. -/
theorem readFraction?_fraction {x : Literal} (h : x.Valid) {r : Bytes} (hr : Ends r) :
    readFraction? ((x.fraction.elim [] ('.' :: ·)).map byte ++
        ((x.exponent.elim [] (x.letter :: ·)).map byte ++ r)) =
      some ((x.fraction.elim [] ('.' :: ·)).map byte,
        (x.exponent.elim [] (x.letter :: ·)).map byte ++ r) := by
  cases hf : x.fraction with
  | none =>
    rw [Option.elim_none, List.map_nil, List.nil_append]
    cases he : x.exponent with
    | none =>
      rw [Option.elim_none, List.map_nil, List.nil_append]
      cases r with
      | nil => rfl
      | cons b t =>
        have hb := hr b rfl
        simp only [isNumberByte, Bool.or_eq_false_iff, decide_eq_false_iff_not] at hb
        rw [readFraction?, if_neg hb.1.1.2]
    | some e =>
      have hpoint : byte x.letter ≠ byte '.' := by
        rcases byte_letter h with hletter | hletter <;> rw [hletter] <;> decide
      rw [Option.elim_some, List.map_cons, List.cons_append, readFraction?, if_neg hpoint]
  | some f =>
    rcases h.fraction_digits f hf with ⟨hdigits, hne⟩
    rw [Option.elim_some, List.map_cons, List.cons_append, readFraction?, if_pos rfl,
      readDigits?_map_byte hdigits hne (isDigitByte_head?_exponent h hr)]
    rfl

/-- The fraction of a literal, or what follows it, does not go on with digits. -/
theorem isDigitByte_head?_fraction {x : Literal} (h : x.Valid) {r : Bytes} (hr : Ends r) :
    ∀ b ∈ ((x.fraction.elim [] ('.' :: ·)).map byte ++
        ((x.exponent.elim [] (x.letter :: ·)).map byte ++ r)).head?, isDigitByte b = false := by
  cases hf : x.fraction with
  | none => exact isDigitByte_head?_exponent h hr
  | some f =>
    intro b hb
    cases hb
    rfl

/-- The whole part of a literal is read up to what is no digit. -/
theorem readWhole?_whole {x : Literal} (h : x.Valid) {r : Bytes}
    (hr : ∀ b ∈ r.head?, isDigitByte b = false) :
    readWhole? (x.whole.map byte ++ r) = some (x.whole.map byte, r) := by
  have hhead : ((x.whole.map byte).head? != some (byte '0') ||
      (x.whole.map byte).length == 1) = true := by
    rcases h.whole_head with hne | hzero
    · cases hw : x.whole with
      | nil => rfl
      | cons c t =>
        have hc : isDigit c = true := by
          have hall := h.whole_digits
          rw [hw, List.all_cons, Bool.and_eq_true] at hall
          exact hall.1
        have hcode : c.toNat ≠ 0x30 := by
          intro hcode
          have hchar : c = '0' := Char.toNat_inj.1 hcode
          rw [hw, hchar] at hne
          exact hne rfl
        have hbyte : byte c ≠ byte '0' := by
          intro heq
          have htoNat := congrArg UInt8.toNat heq
          rw [toNat_byte (Nat.lt_trans (toNat_lt_of_isDigit hc) (by decide))] at htoNat
          exact hcode htoNat
        simp [hbyte]
    · rw [hzero]
      rfl
  rw [readWhole?, readDigits?_map_byte h.whole_digits h.whole_ne_nil hr, Option.filter_some,
    if_pos hhead]

/-- A literal is taken whole. -/
theorem readMagnitude?_map_byte {x : Literal} (h : x.Valid) {r : Bytes} (hr : Ends r) :
    readMagnitude? (x.chars.map byte ++ r) = some (x.chars.map byte, r) := by
  rw [Literal.chars, List.map_append, List.map_append, List.append_assoc, List.append_assoc,
    readMagnitude?, readWhole?_whole h (isDigitByte_head?_fraction h hr)]
  simp only [Option.bind_eq_bind, Option.bind_some, readFraction?_fraction h hr,
    readExponentPart?_exponent h hr, Option.pure_def, List.append_assoc]

/-! ## Tokens -/

/-- A byte that starts a number starts nothing else. -/
theorem tokenAt?_of_number {b : UInt8} (hb : isDigitByte b = true ∨ b = byte '-') (r : Bytes) :
    tokenAt? b r = (readNumber? (b :: r)).map fun x =>
      (.scalar (.number (x.1.map fun b => Char.ofNat b.toNat)), x.2) := by
  have hne {c : Char} (hdigit : isDigitByte (byte c) = false) (hminus : byte c ≠ byte '-') :
      b ≠ byte c := by
    rintro rfl
    rcases hb with hb | hb
    · rw [hb] at hdigit
      cases hdigit
    · exact hminus hb
  rw [tokenAt?, if_neg (hne rfl (by decide)), if_neg (hne rfl (by decide)),
    if_neg (hne rfl (by decide)), if_neg (hne rfl (by decide)), if_neg (hne rfl (by decide)),
    if_neg (hne rfl (by decide)), if_neg (hne rfl (by decide)), if_neg (hne rfl (by decide)),
    if_neg (hne rfl (by decide)), if_neg (hne rfl (by decide))]

/-- No number starts with a blank. -/
theorem isBlankByte_of_number {b : UInt8} (hb : isDigitByte b = true ∨ b = byte '-') :
    isBlankByte b = false := by
  have hall : ∀ c ∈ [' ', '\n', '\t', '\r'], b ≠ byte c := by
    rintro c hc rfl
    simp only [List.mem_cons, List.not_mem_nil, or_false] at hc
    rcases hc with rfl | rfl | rfl | rfl <;> revert hb <;> decide
  simp [isBlankByte, hall ' ', hall '\n', hall '\t', hall '\r']

/-- The characters of ASCII are read back from their bytes. -/
theorem map_ofNat_byte {s : List Char} (h : ∀ c ∈ s, c.toNat < 0x80) :
    (s.map byte).map (fun b => Char.ofNat b.toNat) = s := by
  rw [List.map_map]
  conv => rhs; rw [← List.map_id s]
  apply List.map_congr_left
  intro c hc
  have hcode := toNat_byte (Nat.lt_trans (h c hc) (by decide))
  rw [Function.comp_apply, hcode, Char.ofNat_toNat]
  rfl

/-- A decimal literal with an optional minus sign is a token. -/
theorem reads_literal {x : Literal} (h : x.Valid) (negative : Bool) :
    Reads token? (x.signed negative) (.scalar (.number (x.signed negative))) := by
  intro r hr
  have hascii : ∀ c ∈ x.signed negative, c.toNat < 0x80 := fun c hc => toNat_lt_of_mem_signed h hc
  rcases h.exists_cons with ⟨c, t, hchars, hdigit⟩
  have hmagnitude := readMagnitude?_map_byte h hr
  have hback := map_ofNat_byte hascii
  rw [encodeChars_eq_map hascii]
  cases negative with
  | true =>
    have htext : x.signed true = '-' :: x.chars := rfl
    have hnumber : readNumber? (byte '-' :: (x.chars.map byte ++ r)) =
        some (byte '-' :: x.chars.map byte, r) := by
      rw [readNumber?, if_pos rfl, hmagnitude]
      rfl
    rw [htext] at hback ⊢
    rw [List.map_cons, List.cons_append, token?, List.dropWhile_cons,
      isBlankByte_of_number (Or.inr rfl)]
    simp only [Bool.false_eq_true, if_false]
    rw [tokenAt?_of_number (Or.inr rfl), hnumber, Option.map_some]
    simp only
    rw [← List.map_cons, hback]
  | false =>
    have htext : x.signed false = x.chars := rfl
    have hbyte := isDigitByte_byte hdigit
    have hminus : byte c ≠ byte '-' := by
      intro heq
      rw [heq] at hbyte
      cases hbyte
    rw [htext] at hback ⊢
    rw [hchars, List.map_cons, List.cons_append] at hmagnitude
    rw [hchars] at hback ⊢
    rw [List.map_cons, List.cons_append, token?, List.dropWhile_cons,
      isBlankByte_of_number (Or.inl hbyte)]
    simp only [Bool.false_eq_true, if_false]
    rw [tokenAt?_of_number (Or.inl hbyte), readNumber?, if_neg hminus, hmagnitude, Option.map_some]
    simp only
    rw [← List.map_cons, hback]

/-- The word for nothing is a token. -/
theorem reads_null : Reads token? "null".toList (.scalar .null) := by
  intro r hr
  have hbytes : encodeChars "null".toList ++ r = byte 'n' :: byte 'u' :: byte 'l' :: byte 'l' :: r :=
    rfl
  have hblank : isBlankByte (byte 'n') = false := rfl
  rw [hbytes, token?, List.dropWhile_cons, hblank]
  rfl

theorem reads_true : Reads token? "true".toList (.scalar (.boolean true)) := fun _ _ => rfl

theorem reads_false : Reads token? "false".toList (.scalar (.boolean false)) := fun _ _ => rfl

/-- A string is a token. -/
theorem reads_quote (s : String) : Reads token? (quote s) (.scalar (.text (some s))) := by
  intro r hr
  have hblank : isBlankByte (byte '"') = false := rfl
  rw [quote, List.cons_append, encodeChars_cons_of_lt (by decide), List.cons_append, token?,
    List.dropWhile_cons, hblank]
  simp only [Bool.false_eq_true, if_false]
  have htoken (t : Bytes) : tokenAt? (byte '"') t =
      (readString? t).map fun x => (.scalar (.text x.1), x.2) := rfl
  rw [htoken, readString?_quote]
  rfl

end MetricRelay.Json
