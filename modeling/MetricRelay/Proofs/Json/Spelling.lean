import MetricRelay.Proofs.Json.Records

/-!
# Spellings of strings

One text has many spellings as a JSON string: a character stands for itself, or is
escaped by a letter, or by the numbers of its UTF-16 code units, in digits of either
case.  Half of a surrogate pair that stands alone is no character, and a string with
such a half is no text; it is a string all the same.

Main definitions:

- `HexDigit`, `CodeUnit` and `StringPart`: what strings are made of.
- `quoted`: the string that some parts make.
- `characters` and `textOf?`: the characters that they stand for.

Main results:

- `readContent?_parts`: a string is read as its characters.
- `reads_quoted`: a string is a token.
-/

namespace MetricRelay.Json

open Utf8 (Bytes encodeChar encodeChars)

/-! ## Parts of strings -/

/-- A digit in base sixteen, of either case. -/
structure HexDigit where
  value : Fin 16
  upper : Bool
  deriving DecidableEq

/-- The character of a digit. -/
def HexDigit.char (d : HexDigit) : Char :=
  (if d.upper then "0123456789ABCDEF" else "0123456789abcdef").toList.get ⟨d.value, by
    cases d.upper <;> exact d.value.isLt⟩

/-- A code unit, in four digits. -/
structure CodeUnit where
  first : HexDigit
  second : HexDigit
  third : HexDigit
  fourth : HexDigit
  deriving DecidableEq

namespace CodeUnit

/-- The number of a code unit. -/
def number (u : CodeUnit) : Nat :=
  ((u.first.value.val * 16 + u.second.value.val) * 16 + u.third.value.val) * 16 +
    u.fourth.value.val

/-- The first half of a surrogate pair. -/
def IsHigh (u : CodeUnit) : Prop := 0xd800 ≤ u.number ∧ u.number ≤ 0xdbff

/-- The second half of a surrogate pair. -/
def IsLow (u : CodeUnit) : Prop := 0xdc00 ≤ u.number ∧ u.number ≤ 0xdfff

instance (u : CodeUnit) : Decidable u.IsHigh := inferInstanceAs (Decidable (_ ∧ _))

instance (u : CodeUnit) : Decidable u.IsLow := inferInstanceAs (Decidable (_ ∧ _))

/-- The character of a code unit that stands alone. -/
def char? (u : CodeUnit) : Option Char :=
  if u.IsHigh ∨ u.IsLow then none else some (Char.ofNat u.number)

/-- The character of a surrogate pair. -/
def pair (u v : CodeUnit) : Char :=
  Char.ofNat (0x10000 + (u.number - 0xd800) * 0x400 + (v.number - 0xdc00))

/-- The escape of a code unit. -/
def chars (u : CodeUnit) : List Char :=
  ['\\', 'u', u.first.char, u.second.char, u.third.char, u.fourth.char]

end CodeUnit

/-- The letters of escapes and the characters that they stand for. -/
def escapes : List (Char × Char) :=
  [('"', '"'), ('\\', '\\'), ('/', '/'), ('b', '\x08'), ('f', '\x0c'), ('n', '\n'), ('r', '\r'),
    ('t', '\t')]

/-- A part of a string: a character that stands for itself, a letter behind a backslash,
or a code unit. -/
inductive StringPart where
  | plain (c : Char) (hquote : c ≠ '"') (hslash : c ≠ '\\') (hcontrol : 0x20 ≤ c.toNat)
  | letter (l c : Char) (h : (l, c) ∈ escapes)
  | code (u : CodeUnit)

/-- How a part is written. -/
def StringPart.chars : StringPart → List Char
  | plain c _ _ _ => [c]
  | letter l _ _ => ['\\', l]
  | code u => u.chars

/-- A string. -/
def quoted (ps : List StringPart) : List Char := '"' :: ps.flatMap StringPart.chars ++ ['"']

/-- The characters of a string.  Half of a surrogate pair that stands alone is none. -/
def characters : List StringPart → List (Option Char)
  | [] => []
  | .plain c _ _ _ :: ps => some c :: characters ps
  | .letter _ c _ :: ps => some c :: characters ps
  | .code u :: .code v :: ps =>
    if u.IsHigh ∧ v.IsLow then some (u.pair v) :: characters ps
    else u.char? :: characters (.code v :: ps)
  | .code u :: ps => u.char? :: characters ps

/-- The text of a string, if it is one. -/
def textOf? (ps : List StringPart) : Option String :=
  ((characters ps).mapM id).map String.ofList

/-! ## Digits -/

/-- A hexadecimal digit is of ASCII and has the value it stands for. -/
theorem HexDigit.lt_and_digitValue? (d : HexDigit) :
    d.char.toNat < 0x80 ∧ Hex.digitValue? (Char.ofNat (byte d.char).toNat) = some d.value.val := by
  have hall : ∀ (i : Fin 16) (upper : Bool), (HexDigit.mk i upper).char.toNat < 0x80 ∧
      Hex.digitValue? (Char.ofNat (byte (HexDigit.mk i upper).char).toNat) = some i.val := by
    decide
  exact hall d.value d.upper

namespace CodeUnit

variable (u : CodeUnit)

/-- An escaped code unit is six bytes. -/
theorem encodeChars_chars : encodeChars u.chars = [byte '\\', byte 'u', byte u.first.char,
    byte u.second.char, byte u.third.char, byte u.fourth.char] := by
  rw [encodeChars_eq_map]
  · rfl
  · have hslash : '\\'.toNat < 0x80 := by decide
    have hu : 'u'.toNat < 0x80 := by decide
    simp only [chars, List.forall_mem_cons, hslash, hu, u.first.lt_and_digitValue?.1,
      u.second.lt_and_digitValue?.1, u.third.lt_and_digitValue?.1, u.fourth.lt_and_digitValue?.1,
      true_and]
    exact fun _ h => by cases h

/-- The four digits of a code unit are read as its number. -/
theorem readHex4?_digits (r : Bytes) :
    readHex4? (byte u.first.char :: byte u.second.char :: byte u.third.char ::
      byte u.fourth.char :: r) = some (u.number, r) := by
  simp only [readHex4?, u.first.lt_and_digitValue?.2, u.second.lt_and_digitValue?.2,
    u.third.lt_and_digitValue?.2, u.fourth.lt_and_digitValue?.2, Option.bind_eq_bind,
    Option.bind_some, Option.pure_def]
  rfl

/-- What a code unit is read as depends on the half that it is. -/
theorem nextPiece?_chars (r : Bytes) :
    nextPiece? (encodeChars u.chars ++ r) =
      if u.IsHigh then
        match readLowSurrogate? r with
        | some (m, r) => some (.bytes (encodeChar (ofSurrogates u.number m)), r)
        | none => some (.lone, r)
      else if u.IsLow then some (.lone, r)
      else some (.bytes (encodeChar (Char.ofNat u.number)), r) := by
  have hescape : nextPiece? (encodeChars u.chars ++ r) =
      readCodeEscape? (byte u.first.char :: byte u.second.char :: byte u.third.char ::
        byte u.fourth.char :: r) := by
    rw [encodeChars_chars]
    rfl
  rw [hescape, readCodeEscape?, readHex4?_digits]
  rfl

/-- A second half is found behind a first one exactly if one stands there. -/
theorem readLowSurrogate?_chars (r : Bytes) :
    readLowSurrogate? (encodeChars u.chars ++ r) = if u.IsLow then some (u.number, r) else none := by
  have hescape : readLowSurrogate? (encodeChars u.chars ++ r) =
      (readHex4? (byte u.first.char :: byte u.second.char :: byte u.third.char ::
        byte u.fourth.char :: r)).filter fun n => 0xdc00 ≤ n.1 && n.1 ≤ 0xdfff := by
    rw [encodeChars_chars]
    rfl
  rw [hescape, readHex4?_digits, Option.filter_some]
  simp only [Bool.and_eq_true, decide_eq_true_eq]
  rfl

end CodeUnit

/-! ## Parts -/

/-- What was read of a string, with a character before it or half of one. -/
def withCharacter (o : Option Char) (x : Option Bytes × Bytes) : Option Bytes × Bytes :=
  (o.bind fun c => x.1.map (encodeChar c ++ ·), x.2)

/-- In front of the rest of a string some bytes stand for a character, or for half of one. -/
def StandsFor (text : Bytes) (o : Option Char) (rest : Bytes) : Prop :=
  readContent? (text ++ rest) = (readContent? rest).map (withCharacter o)

theorem standsFor_of_spells {text : Bytes} {c : Char} (h : Spells text (encodeChar c))
    (rest : Bytes) : StandsFor text (some c) rest := h rest

/-- A character that needs no escape stands for itself. -/
theorem standsFor_plain {c : Char} (hquote : c ≠ '"') (hslash : c ≠ '\\')
    (hcontrol : 0x20 ≤ c.toNat) (rest : Bytes) : StandsFor (encodeChars [c]) (some c) rest := by
  have hne {d : Char} (hd : d.toNat < 0x20) : c ≠ d := by
    rintro rfl
    exact absurd hcontrol (Nat.not_le.2 hd)
  have hchars : quoteChar c = [c] := by
    rw [quoteChar, if_neg hquote, if_neg hslash, if_neg (hne (by decide)),
      if_neg (hne (by decide)), if_neg (hne (by decide)), if_neg (hne (by decide)),
      if_neg (hne (by decide)), if_neg (Nat.not_lt.2 hcontrol)]
  have hspells := spells_quoteChar c
  rw [hchars] at hspells
  exact standsFor_of_spells hspells rest

/-- A backslash and a letter stand for the character of the table of escapes. -/
theorem standsFor_letter {l c : Char} (h : (l, c) ∈ escapes) (rest : Bytes) :
    StandsFor (encodeChars ['\\', l]) (some c) rest := by
  refine standsFor_of_spells ?_ rest
  simp only [escapes, List.mem_cons, Prod.mk.injEq, List.not_mem_nil, or_false] at h
  rcases h with ⟨rfl, rfl⟩ | ⟨rfl, rfl⟩ | ⟨rfl, rfl⟩ | ⟨rfl, rfl⟩ | ⟨rfl, rfl⟩ | ⟨rfl, rfl⟩ |
    ⟨rfl, rfl⟩ | ⟨rfl, rfl⟩ <;> exact spells_letter (by decide) rfl

/-- After a lone surrogate the string is read to its end, and is no text. -/
theorem readContent?_of_lone {s r : Bytes} (h : nextPiece? s = some (.lone, r)) :
    readContent? s = (readContent? r).map fun x => (none, x.2) := by
  rw [readContent?]
  split <;> rename_i hp <;> rw [hp] at h <;> cases h
  rfl

/-- Two halves of a surrogate pair. -/
theorem standsFor_pair {u v : CodeUnit} (hu : u.IsHigh) (hv : v.IsLow) (rest : Bytes) :
    StandsFor (encodeChars u.chars ++ encodeChars v.chars) (some (u.pair v)) rest := by
  have hpiece : nextPiece? (encodeChars u.chars ++ (encodeChars v.chars ++ rest)) =
      some (.bytes (encodeChar (u.pair v)), rest) := by
    rw [u.nextPiece?_chars, if_pos hu, v.readLowSurrogate?_chars, if_pos hv]
    rfl
  unfold StandsFor
  rw [List.append_assoc, readContent?_of_bytes hpiece]
  rfl

/-- A code unit that stands alone. -/
theorem standsFor_single {u : CodeUnit} {rest : Bytes}
    (halone : u.IsHigh → readLowSurrogate? rest = none) :
    StandsFor (encodeChars u.chars) u.char? rest := by
  have hpiece : nextPiece? (encodeChars u.chars ++ rest) =
      some (u.char?.elim .lone fun c => .bytes (encodeChar c), rest) := by
    rw [u.nextPiece?_chars]
    by_cases hu : u.IsHigh
    · rw [if_pos hu, halone hu, CodeUnit.char?, if_pos (.inl hu)]
      rfl
    · by_cases hv : u.IsLow
      · rw [if_neg hu, if_pos hv, CodeUnit.char?, if_pos (.inr hv)]
        rfl
      · rw [if_neg hu, if_neg hv, CodeUnit.char?, if_neg (not_or_intro hu hv)]
        rfl
  unfold StandsFor
  cases hchar : u.char? with
  | none =>
    rw [hchar] at hpiece
    exact readContent?_of_lone hpiece
  | some c =>
    rw [hchar] at hpiece
    exact readContent?_of_bytes hpiece

/-- Without a backslash there is no second half of a pair. -/
theorem readLowSurrogate?_of_ne {s : Bytes} (h : ∀ b ∈ s.head?, b ≠ byte '\\') :
    readLowSurrogate? s = none := by
  unfold readLowSurrogate?
  split
  · rename_i a b r
    exact if_neg fun hescape => h a rfl hescape.1
  · rfl

/-- The first byte of a character is a backslash for a backslash only. -/
theorem ne_backslash_of_encodeChar {c : Char} (hslash : c ≠ '\\') (s : Bytes) :
    ∀ b ∈ (encodeChar c ++ s).head?, b ≠ byte '\\' := by
  intro b hb
  have hmem : b ∈ encodeChar c := by
    have hne : encodeChar c ≠ [] := by
      unfold encodeChar
      simp only
      split <;> [skip; split <;> [skip; split]] <;> exact List.cons_ne_nil _ _
    rcases List.exists_cons_of_ne_nil hne with ⟨d, t, hbytes⟩
    rw [hbytes] at hb ⊢
    cases hb
    exact List.mem_cons_self
  rintro rfl
  rcases Nat.lt_or_ge c.toNat 0x80 with hascii | hwide
  · rw [encodeChar_eq_byte hascii, List.mem_singleton] at hmem
    have hcode := congrArg UInt8.toNat hmem
    rw [toNat_byte (by omega : c.toNat < 256)] at hcode
    exact hslash (Char.toNat_inj.1 hcode.symm)
  · exact absurd (Utf8.le_of_mem_encodeChar hwide hmem) (by decide)

/-- No second half stands where a string ends, or where a part starts that is no code
unit. -/
theorem readLowSurrogate?_of_no_code {ps : List StringPart} (h : ∀ u ps', ps ≠ .code u :: ps')
    (r : Bytes) :
    readLowSurrogate? (encodeChars (ps.flatMap StringPart.chars) ++ byte '"' :: r) = none := by
  cases ps with
  | nil =>
    refine readLowSurrogate?_of_ne fun b hb => ?_
    cases hb
    decide
  | cons p ps =>
    cases p with
    | plain c hquote hslash hcontrol =>
      rw [List.flatMap_cons, StringPart.chars, List.singleton_append, Utf8.encodeChars_cons,
        List.append_assoc]
      exact readLowSurrogate?_of_ne (ne_backslash_of_encodeChar hslash _)
    | letter l c hl =>
      simp only [escapes, List.mem_cons, Prod.mk.injEq, List.not_mem_nil, or_false] at hl
      rcases hl with ⟨rfl, rfl⟩ | ⟨rfl, rfl⟩ | ⟨rfl, rfl⟩ | ⟨rfl, rfl⟩ | ⟨rfl, rfl⟩ |
        ⟨rfl, rfl⟩ | ⟨rfl, rfl⟩ | ⟨rfl, rfl⟩ <;> rfl
    | code u => exact absurd rfl (h u ps)

/-! ## Strings -/

/-- A string is a text if all its parts are characters, the first and the others. -/
theorem mapM_encodeChar_cons (o : Option Char) (cs : List (Option Char)) (r : Bytes) :
    (((o :: cs).mapM id).map encodeChars, r) =
      withCharacter o ((cs.mapM id).map encodeChars, r) := by
  cases o with
  | none => rfl
  | some c =>
    simp only [withCharacter, List.mapM_cons, id, Option.bind_eq_bind, Option.bind_some]
    cases cs.mapM id with
    | none => rfl
    | some s => simp [Utf8.encodeChars_cons]

/-- The first part of a string is read, and then the others. -/
theorem StandsFor.readContent? {text rest r : Bytes} {o : Option Char} {cs : List (Option Char)}
    (h : StandsFor text o rest)
    (hrest : readContent? rest = some ((cs.mapM id).map encodeChars, r)) :
    readContent? (text ++ rest) = some (((o :: cs).mapM id).map encodeChars, r) := by
  rw [h, hrest, mapM_encodeChar_cons]
  rfl

/-- A string is read as its characters. -/
theorem readContent?_parts (ps : List StringPart) (r : Bytes) :
    readContent? (encodeChars (ps.flatMap StringPart.chars) ++ byte '"' :: r) =
      some (((characters ps).mapM id).map encodeChars, r) := by
  fun_induction characters ps with
  | case1 => exact readContent?_of_close (by rw [List.flatMap_nil]; rfl)
  | case2 c hquote hslash hcontrol ps ih =>
    rw [List.flatMap_cons, StringPart.chars, Utf8.encodeChars_append, List.append_assoc]
    exact (standsFor_plain hquote hslash hcontrol _).readContent? ih
  | case3 l c h ps ih =>
    rw [List.flatMap_cons, StringPart.chars, Utf8.encodeChars_append, List.append_assoc]
    exact (standsFor_letter h _).readContent? ih
  | case4 u v ps hpair ih =>
    rw [List.flatMap_cons, List.flatMap_cons, StringPart.chars, StringPart.chars,
      ← List.append_assoc, Utf8.encodeChars_append, Utf8.encodeChars_append, List.append_assoc]
    exact (standsFor_pair hpair.1 hpair.2 _).readContent? ih
  | case5 u v ps hpair ih =>
    rw [List.flatMap_cons, StringPart.chars, Utf8.encodeChars_append, List.append_assoc]
    refine (standsFor_single fun hhigh => ?_).readContent? ih
    rw [List.flatMap_cons, StringPart.chars, Utf8.encodeChars_append, List.append_assoc,
      v.readLowSurrogate?_chars, if_neg fun hlow => hpair ⟨hhigh, hlow⟩]
  | case6 u ps hother ih =>
    rw [List.flatMap_cons, StringPart.chars, Utf8.encodeChars_append, List.append_assoc]
    exact (standsFor_single fun _ => readLowSurrogate?_of_no_code hother r).readContent? ih

/-- A string is read to the text that its parts stand for, if they all stand for characters.
-/
theorem readString?_parts (ps : List StringPart) (r : Bytes) :
    readString? (encodeChars (ps.flatMap StringPart.chars) ++ byte '"' :: r) =
      some (textOf? ps, r) := by
  rw [readString?, readContent?_parts, textOf?]
  cases (characters ps).mapM id with
  | none => rfl
  | some s =>
    have hdecode := Utf8.decode?_encode (String.ofList s)
    rw [Utf8.encode, String.toList_ofList] at hdecode
    simp only [Option.map_some, Option.bind_some, hdecode]

/-- A string is a token, and its text is what it stands for, if it is a text. -/
theorem reads_quoted (ps : List StringPart) :
    Reads token? (quoted ps) (.scalar (.text (textOf? ps))) := by
  intro r _
  have htoken (s : Bytes) : token? (byte '"' :: s) =
      (readString? s).map fun x => (.scalar (.text x.1), x.2) := rfl
  have htext : encodeChars (quoted ps) ++ r =
      byte '"' :: (encodeChars (ps.flatMap StringPart.chars) ++ byte '"' :: r) := by
    rw [quoted, List.cons_append, encodeChars_cons_of_lt (by decide), Utf8.encodeChars_append,
      List.cons_append, List.append_assoc]
    rfl
  rw [htext, htoken, readString?_parts]
  rfl

end MetricRelay.Json
