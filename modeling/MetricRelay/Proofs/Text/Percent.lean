import MetricRelay.Proofs.Text.Utf8
import MetricRelay.Text.Percent

/-!
# Percent escapes

There are many ways to write a text as a segment of a path: a byte without a meaning
in paths stands for itself or is escaped, any other byte is escaped, and the digits of
an escape may have either case.  All of them are read as the text.  One of them lets
letters, digits and four marks stand for themselves and escapes every other character
byte by byte, so that every text has a segment.

Main definitions:

- `Percent.Writes`: a segment of a path, and the text that is read from it.
- `Percent.Spells`: a segment that is written by these rules, and its text.
- `Percent.encode`: the escaped form of a text.

Main results:

- `Percent.Spells.writes`: however a text is spelled, it is read from the segment.
- `Percent.writes_encode`: the escaped form of a text is a segment for it.
-/

namespace MetricRelay.Percent

open Utf8 (Bytes encodeChar encodeChars encodeChars_append encodeChars_cons encodeChar_of_lt)

/-- A segment of a path from which a text is read.  It ends neither itself nor
the path. -/
structure Writes (segment text : String) : Prop where
  decode : decode? (Utf8.encode segment) = some text
  within : ∀ c ∈ segment.toList, c ≠ '/' ∧ c ≠ '?' ∧ c ≠ '#'

/-! ## Spellings -/

/-- The bytes with a meaning in paths: the sign of an escape, the end of a segment, and
the two ends of a path. -/
def reserved : Bytes := [0x25, 0x2f, 0x3f, 0x23]

/-- A byte that is the digit for a number, in lower or in upper case. -/
def IsDigit (x : UInt8) (n : Nat) : Prop :=
  (Utf8.encode "0123456789abcdef")[n]? = some x ∨ (Utf8.encode "0123456789ABCDEF")[n]? = some x

instance (x : UInt8) (n : Nat) : Decidable (IsDigit x n) :=
  inferInstanceAs (Decidable (_ ∨ _))

/-- Bytes that are written for others, each of which stands for itself or is escaped. -/
inductive SpellsBytes : Bytes → Bytes → Prop
  | nil : SpellsBytes [] []
  | plain {b : UInt8} {s t : Bytes} (free : b ∉ reserved) (rest : SpellsBytes s t) :
      SpellsBytes (b :: s) (b :: t)
  | escape {b x y : UInt8} {s t : Bytes} (high : IsDigit x (b.toNat / 16))
      (low : IsDigit y (b.toNat % 16)) (rest : SpellsBytes s t) :
      SpellsBytes (0x25 :: x :: y :: s) (b :: t)

/-- A segment that is written for a text. -/
def Spells (segment text : String) : Prop :=
  SpellsBytes (Utf8.encode segment) (Utf8.encode text)

/-! ## Reading -/

/-- A byte other than the sign of an escape stands for itself. -/
theorem unescape_of_ne {b : UInt8} (h : b ≠ 0x25) (r : Bytes) :
    unescape (b :: r) = b :: unescape r := by
  have hescape : escape? b r = none := by
    unfold escape?
    rw [if_neg h]
  rw [unescape]
  simp only [hescape]

/-- A digit of either case is read as its number, and has no meaning in paths. -/
theorem IsDigit.value {x : UInt8} {n : Nat} (h : IsDigit x n) (hn : n < 16) :
    digitValue? x = some n ∧ x ∉ reserved := by
  have hlower : ∀ i : Fin 16, ∀ x ∈ (Utf8.encode "0123456789abcdef")[i.val]?,
      digitValue? x = some i.val ∧ x ∉ reserved := by decide +kernel
  have hupper : ∀ i : Fin 16, ∀ x ∈ (Utf8.encode "0123456789ABCDEF")[i.val]?,
      digitValue? x = some i.val ∧ x ∉ reserved := by decide +kernel
  rcases h with h | h
  · exact hlower ⟨n, hn⟩ x h
  · exact hupper ⟨n, hn⟩ x h

section Escapes

variable {b x y : UInt8} (high : IsDigit x (b.toNat / 16)) (low : IsDigit y (b.toNat % 16))
include high low

/-- An escape is read as its byte, and its digits have no meaning in paths. -/
theorem escape?_digits (r : Bytes) :
    escape? 0x25 (x :: y :: r) = some b ∧ x ∉ reserved ∧ y ∉ reserved := by
  have hb : b.toNat < 256 := b.toNat_lt
  rcases high.value (by omega) with ⟨hhigh, hx⟩
  rcases low.value (by omega) with ⟨hlow, hy⟩
  have hvalue : (b.toNat / 16 * 16 + b.toNat % 16).toUInt8 = b := by
    have hnat : b.toNat / 16 * 16 + b.toNat % 16 = b.toNat := by omega
    rw [hnat]
    exact UInt8.ofNat_toNat
  refine ⟨?_, hx, hy⟩
  rw [escape?, if_pos rfl]
  simp only [hhigh, hlow, Option.bind_eq_bind, Option.bind_some, Option.pure_def, hvalue]

/-- An escape is read as its byte. -/
theorem unescape_escape (r : Bytes) : unescape (0x25 :: x :: y :: r) = b :: unescape r := by
  rw [unescape]
  simp only [(escape?_digits high low r).1, List.drop_succ_cons, List.drop_zero]

end Escapes

/-- However bytes are spelled, they are read back. -/
theorem SpellsBytes.unescape_eq {s t : Bytes} (h : SpellsBytes s t) : unescape s = t := by
  induction h with
  | nil => rw [unescape]
  | @plain b s t free rest ih =>
    have hne : b ≠ 0x25 := fun heq => free (heq ▸ List.mem_cons_self)
    rw [unescape_of_ne hne, ih]
  | escape high low rest ih => rw [unescape_escape high low, ih]

/-- The only byte with a meaning in paths that a spelling has is the sign of an escape. -/
theorem SpellsBytes.within {s t : Bytes} (h : SpellsBytes s t) :
    ∀ x ∈ s, x ∈ reserved → x = 0x25 := by
  induction h with
  | nil => exact fun x hx => nomatch hx
  | plain free rest ih =>
    intro x hx hreserved
    rcases List.mem_cons.1 hx with rfl | hx
    · exact absurd hreserved free
    · exact ih x hx hreserved
  | @escape b x y s t high low rest ih =>
    rcases escape?_digits high low s with ⟨-, hfirst, hsecond⟩
    intro z hz hreserved
    simp only [List.mem_cons] at hz
    rcases hz with rfl | rfl | rfl | hz
    · rfl
    · exact absurd hreserved hfirst
    · exact absurd hreserved hsecond
    · exact ih z hz hreserved

/-- However a text is spelled, it is read from the segment. -/
theorem Spells.writes {segment text : String} (h : Spells segment text) : Writes segment text := by
  constructor
  · rw [decode?, SpellsBytes.unescape_eq h]
    exact Utf8.decode?_encode text
  · intro c hc
    have hfree (d : Char) (hascii : d.toNat < 0x80) (hreserved : d.toNat.toUInt8 ∈ reserved)
        (hne : d.toNat.toUInt8 ≠ 0x25) : c ≠ d := by
      rintro rfl
      exact hne (SpellsBytes.within h _ (Utf8.mem_encode hc hascii) hreserved)
    refine ⟨hfree '/' ?_ ?_ ?_, hfree '?' ?_ ?_ ?_, hfree '#' ?_ ?_ ?_⟩ <;> decide

example : Writes "%2f+%C3%a9%25" "/+é%" := by
  have hspells : Spells "%2f+%C3%a9%25" "/+é%" :=
    .escape (by decide) (by decide) <| .plain (by decide) <| .escape (by decide) (by decide) <|
      .escape (by decide) (by decide) <| .escape (by decide) (by decide) .nil
  exact hspells.writes

/-- Only the empty segment is written for the empty text. -/
theorem Spells.eq_empty {segment : String} (h : Spells segment "") : segment = "" := by
  have hbytes : Utf8.encode segment = Utf8.encode "" := by
    unfold Spells at h
    generalize Utf8.encode segment = s at h
    cases h with
    | nil => rfl
  have hdecode := Utf8.decode?_encode segment
  rw [hbytes, Utf8.decode?_encode] at hdecode
  exact (Option.some.inj hdecode).symm

/-! ## The escaped form -/

/-- A character that stands for itself. -/
def isPlain (c : Char) : Bool :=
  ('a' ≤ c && c ≤ 'z') || ('A' ≤ c && c ≤ 'Z') || ('0' ≤ c && c ≤ '9') ||
    ['-', '.', '_', '~'].contains c

/-- The escape of a byte. -/
def escapeByte (b : UInt8) : List Char := '%' :: Hex.encodeByte b

/-- The escaped form of a character. -/
def escapeChar (c : Char) : List Char :=
  if isPlain c then [c] else (encodeChar c).flatMap escapeByte

/-- The escaped form of a text. -/
def encode (s : String) : String := String.ofList (s.toList.flatMap escapeChar)

/-- Characters that need no escape are of ASCII. -/
theorem toNat_lt_of_isPlain {c : Char} (h : isPlain c = true) : c.toNat < 0x80 := by
  have hle {d : Char} (hd : d.toNat < 0x80) (hcd : c ≤ d) : c.toNat < 0x80 :=
    Nat.lt_of_le_of_lt hcd hd
  simp only [isPlain, Bool.or_eq_true, Bool.and_eq_true, decide_eq_true_eq,
    List.contains_eq_mem, List.mem_cons, List.not_mem_nil, or_false] at h
  rcases h with ((h | h) | h) | rfl | rfl | rfl | rfl
  · exact hle (by decide) h.2
  · exact hle (by decide) h.2
  · exact hle (by decide) h.2
  all_goals decide

/-- A plain character has no meaning in paths. -/
theorem not_mem_reserved_of_isPlain {c : Char} (h : isPlain c = true) :
    c.toNat.toUInt8 ∉ reserved := by
  have hlt := toNat_lt_of_isPlain h
  have hall : ∀ i : Fin 0x80, isPlain (Char.ofNat i) = true → i.val.toUInt8 ∉ reserved := by
    decide +kernel
  have hc := hall ⟨c.toNat, hlt⟩
  rw [Char.ofNat_toNat] at hc
  exact hc h

theorem toNat_digit_lt {n : Nat} (h : n < 16) : (Hex.digit n).toNat < 0x80 := by
  have hall : ∀ i : Fin 16, (Hex.digit i).toNat < 0x80 := by decide
  exact hall ⟨n, h⟩

/-- A digit that was written is read as its number. -/
theorem isDigit_digit {n : Nat} (h : n < 16) : IsDigit (Hex.digit n).toNat.toUInt8 n := by
  have hall : ∀ i : Fin 16,
      (Utf8.encode "0123456789abcdef")[i.val]? = some (Hex.digit i).toNat.toUInt8 := by
    decide +kernel
  exact .inl (hall ⟨n, h⟩)

/-- Two spellings one after the other. -/
theorem SpellsBytes.append {s t s' t' : Bytes} (h : SpellsBytes s t) (h' : SpellsBytes s' t') :
    SpellsBytes (s ++ s') (t ++ t') := by
  induction h with
  | nil => exact h'
  | plain free rest ih => exact .plain free ih
  | escape high low rest ih => exact .escape high low ih

/-- Any bytes are spelled by their escapes. -/
theorem spells_escapeBytes (bytes : Bytes) :
    SpellsBytes (encodeChars (bytes.flatMap escapeByte)) bytes := by
  induction bytes with
  | nil => exact .nil
  | cons b bytes ih =>
    have hb : b.toNat < 256 := b.toNat_lt
    have hhigh : b.toNat / 16 < 16 := by omega
    have hlow : b.toNat % 16 < 16 := by omega
    rw [List.flatMap_cons, encodeChars_append, escapeByte, Hex.encodeByte, encodeChars_cons,
      encodeChars_cons, encodeChars_cons, encodeChar_of_lt (by decide),
      encodeChar_of_lt (toNat_digit_lt hhigh), encodeChar_of_lt (toNat_digit_lt hlow)]
    exact .escape (isDigit_digit hhigh) (isDigit_digit hlow) ih

/-- A character is spelled by its escape. -/
theorem spells_escapeChar (c : Char) :
    SpellsBytes (encodeChars (escapeChar c)) (encodeChar c) := by
  rw [escapeChar]
  by_cases h : isPlain c = true
  · have hone := encodeChar_of_lt (toNat_lt_of_isPlain h)
    rw [if_pos h, encodeChars_cons, hone]
    exact .plain (not_mem_reserved_of_isPlain h) .nil
  · rw [if_neg h]
    exact spells_escapeBytes (encodeChar c)

/-- The escaped form of a text is one of its spellings. -/
theorem spells_encode (text : String) : Spells (encode text) text := by
  rw [Spells, Utf8.encode, Utf8.encode, encode, String.toList_ofList]
  induction text.toList with
  | nil => exact .nil
  | cons c s ih =>
    rw [List.flatMap_cons, encodeChars_append, encodeChars_cons]
    exact (spells_escapeChar c).append ih

/-- The escaped form of a text is a segment for it. -/
theorem writes_encode (text : String) : Writes (encode text) text := (spells_encode text).writes

end MetricRelay.Percent
