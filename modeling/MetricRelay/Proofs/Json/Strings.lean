import MetricRelay.Json.Writer
import MetricRelay.Proofs.Text.Utf8

/-!
# Written strings are read back

A string is read piece by piece.  What the writer makes of one character is read
as the bytes of that character, whatever follows it, so the pieces of a whole
string join to the bytes of its text.

Main definitions:

- `Spells`: some bytes stand for others inside a string.

Main results:

- `spells_quoteChar`: what is written for a character stands for it.
- `readString?_quote`: a string is read back, quotes, escapes and all.
-/

namespace MetricRelay.Json

open Utf8 (Bytes encodeChar encodeChars)

theorem toNat_byte {c : Char} (h : c.toNat < 256) : (byte c).toNat = c.toNat :=
  Utf8.toNat_toUInt8 h

theorem encodeChar_eq_byte {c : Char} (h : c.toNat < 0x80) : encodeChar c = [byte c] :=
  Utf8.encodeChar_of_lt h

/-- A character of ASCII is written as one byte. -/
theorem encodeChars_cons_of_lt {c : Char} (h : c.toNat < 0x80) (s : List Char) :
    encodeChars (c :: s) = byte c :: encodeChars s := by
  rw [Utf8.encodeChars_cons, encodeChar_eq_byte h]
  rfl

/-- A text of ASCII is written as its bytes. -/
theorem encodeChars_eq_map {s : List Char} (h : ∀ c ∈ s, c.toNat < 0x80) :
    encodeChars s = s.map byte := by
  induction s with
  | nil => rfl
  | cons c r ih =>
    rw [encodeChars_cons_of_lt (h c List.mem_cons_self), List.map_cons,
      ih fun d hd => h d (List.mem_cons_of_mem _ hd)]

/-! ## Pieces -/

/-- The closing quote ends the content. -/
theorem readContent?_of_close {s r : Bytes} (h : nextPiece? s = some (.close, r)) :
    readContent? s = some (some [], r) := by
  rw [readContent?]
  split <;> rename_i hp <;> rw [hp] at h <;> cases h
  rfl

/-- A piece other than the closing quote stands in front of what the rest is read to. -/
theorem readContent?_of_bytes {s r b : Bytes} (h : nextPiece? s = some (.bytes b, r)) :
    readContent? s = (readContent? r).map fun x => (x.1.map (b ++ ·), x.2) := by
  rw [readContent?]
  split <;> rename_i hp <;> rw [hp] at h <;> cases h
  rfl

/-- Inside a string `text` stands for `bytes`, whatever follows. -/
def Spells (text bytes : Bytes) : Prop :=
  ∀ r, readContent? (text ++ r) = (readContent? r).map fun x => (x.1.map (bytes ++ ·), x.2)

/-- Nothing is spelled by nothing. -/
theorem spells_nil : Spells [] [] := by
  intro r
  simp

/-- Two spellings one after the other. -/
theorem Spells.append {s t b d : Bytes} (hs : Spells s b) (ht : Spells t d) :
    Spells (s ++ t) (b ++ d) := by
  intro r
  rw [List.append_assoc, hs, ht, Option.map_map]
  refine congrArg (fun f => (readContent? r).map f) ?_
  funext x
  simp [Option.map_map, Function.comp_def]

/-- A text is spelled one character after the other. -/
theorem Spells.flatMap {f : Char → List Char} (h : ∀ c, Spells (encodeChars (f c)) (encodeChar c))
    (s : List Char) : Spells (encodeChars (s.flatMap f)) (encodeChars s) := by
  induction s with
  | nil => exact spells_nil
  | cons c r ih =>
    rw [List.flatMap_cons, Utf8.encodeChars_append, Utf8.encodeChars_cons]
    exact (h c).append ih

theorem spells_of_nextPiece? {text bytes : Bytes}
    (h : ∀ r, nextPiece? (text ++ r) = some (.bytes bytes, r)) : Spells text bytes :=
  fun r => readContent?_of_bytes (h r)

/-- A byte that is neither a quote nor a backslash nor a control character stands
for itself. -/
theorem spells_self {b : UInt8} (hquote : b ≠ byte '"') (hslash : b ≠ byte '\\')
    (hcontrol : 0x20 ≤ b.toNat) : Spells [b] [b] := by
  apply spells_of_nextPiece?
  intro r
  rw [List.singleton_append, nextPiece?, if_neg hquote, if_neg hslash, if_neg (by omega)]

/-- Bytes that are no quotes, backslashes or controls spell themselves. -/
theorem spells_bytes {text : Bytes}
    (h : ∀ b ∈ text, b ≠ byte '"' ∧ b ≠ byte '\\' ∧ 0x20 ≤ b.toNat) : Spells text text := by
  induction text with
  | nil => exact spells_nil
  | cons b r ih =>
    rcases h b List.mem_cons_self with ⟨hquote, hslash, hcontrol⟩
    exact (spells_self hquote hslash hcontrol).append (ih fun c hc => h c (List.mem_cons_of_mem _ hc))

/-- A letter behind a backslash stands for its byte. -/
theorem spells_letter {b v : UInt8} (hb : b ≠ byte 'u') (hv : letterEscape? b = some v) :
    Spells [byte '\\', b] [v] := by
  apply spells_of_nextPiece?
  intro r
  have hslash : byte '\\' ≠ byte '"' := by decide
  simp only [List.cons_append, List.nil_append]
  rw [nextPiece?, if_neg hslash, if_pos rfl, readEscape?, if_neg hb, hv]
  rfl

/-! ## Characters -/

/-- The two digits of a number below the space. -/
theorem digits_of_control {n : Nat} (h : n < 0x20) :
    (Hex.digit (n / 16)).toNat < 0x80 ∧ (Hex.digit (n % 16)).toNat < 0x80 ∧
      Hex.digitValue? (Char.ofNat (byte (Hex.digit (n / 16))).toNat) = some (n / 16) ∧
      Hex.digitValue? (Char.ofNat (byte (Hex.digit (n % 16))).toNat) = some (n % 16) := by
  have hall : ∀ i : Fin 0x20,
      (Hex.digit (i.val / 16)).toNat < 0x80 ∧ (Hex.digit (i.val % 16)).toNat < 0x80 ∧
        Hex.digitValue? (Char.ofNat (byte (Hex.digit (i.val / 16))).toNat) = some (i.val / 16) ∧
        Hex.digitValue? (Char.ofNat (byte (Hex.digit (i.val % 16))).toNat) =
          some (i.val % 16) := by
    decide
  exact hall ⟨n, h⟩

/-- Control characters are escaped by their number. -/
theorem spells_control {c : Char} (h : c.toNat < 0x20) :
    Spells (encodeChars ['\\', 'u', '0', '0', Hex.digit (c.toNat / 16), Hex.digit (c.toNat % 16)])
      (encodeChar c) := by
  rcases digits_of_control h with ⟨hhigh, hlow, hhighValue, hlowValue⟩
  have htext : encodeChars ['\\', 'u', '0', '0', Hex.digit (c.toNat / 16),
      Hex.digit (c.toNat % 16)] = [byte '\\', byte 'u', byte '0', byte '0',
        byte (Hex.digit (c.toNat / 16)), byte (Hex.digit (c.toNat % 16))] := by
    rw [encodeChars_eq_map]
    · rfl
    · simp [hhigh, hlow]
  have hread (r : Bytes) : readHex4? (byte '0' :: byte '0' :: byte (Hex.digit (c.toNat / 16)) ::
      byte (Hex.digit (c.toNat % 16)) :: r) = some (c.toNat, r) := by
    have hzero : Hex.digitValue? (Char.ofNat (byte '0').toNat) = some 0 := by decide
    have hvalue : ((0 * 16 + 0) * 16 + c.toNat / 16) * 16 + c.toNat % 16 = c.toNat := by omega
    simp only [readHex4?, hzero, hhighValue, hlowValue, Option.bind_eq_bind, Option.bind_some,
      Option.pure_def, hvalue]
  rw [htext]
  apply spells_of_nextPiece?
  intro r
  have hslash : byte '\\' ≠ byte '"' := by decide
  simp only [List.cons_append, List.nil_append]
  rw [nextPiece?, if_neg hslash, if_pos rfl, readEscape?, if_pos rfl, readCodeEscape?, hread]
  simp only
  rw [if_neg (by omega), if_neg (by omega), Char.ofNat_toNat]

/-- What is written for a character stands for it. -/
theorem spells_quoteChar (c : Char) : Spells (encodeChars (quoteChar c)) (encodeChar c) := by
  unfold quoteChar
  split
  · rename_i hc
    subst hc
    exact spells_letter (by decide) rfl
  rename_i hquote
  split
  · rename_i hc
    subst hc
    exact spells_letter (by decide) rfl
  rename_i hslash
  split
  · rename_i hc
    subst hc
    exact spells_letter (by decide) rfl
  split
  · rename_i hc
    subst hc
    exact spells_letter (by decide) rfl
  split
  · rename_i hc
    subst hc
    exact spells_letter (by decide) rfl
  split
  · rename_i hc
    subst hc
    exact spells_letter (by decide) rfl
  split
  · rename_i hc
    subst hc
    exact spells_letter (by decide) rfl
  split
  · rename_i hcontrol
    exact spells_control hcontrol
  rename_i hcontrol
  have hself : encodeChars [c] = encodeChar c := by
    rw [Utf8.encodeChars_cons]
    exact List.append_nil _
  rw [hself]
  apply spells_bytes
  intro b hb
  rcases Nat.lt_or_ge c.toNat 0x80 with hascii | hwide
  · rw [encodeChar_eq_byte hascii, List.mem_singleton] at hb
    have hcode : b.toNat = c.toNat := by
      rw [hb]
      exact toNat_byte (by omega)
    refine ⟨fun h => hquote ?_, fun h => hslash ?_, by omega⟩
    · rw [h] at hcode
      exact Char.toNat_inj.1 hcode.symm
    · rw [h] at hcode
      exact Char.toNat_inj.1 hcode.symm
  · have hle := Utf8.le_of_mem_encodeChar hwide hb
    refine ⟨?_, ?_, by omega⟩
    · rintro rfl
      exact absurd hle (by decide)
    · rintro rfl
      exact absurd hle (by decide)

/-! ## Strings -/

/-- A quoted text is read back, up to the closing quote. -/
theorem readContent?_quoted (s : List Char) (r : Bytes) :
    readContent? (encodeChars (s.flatMap quoteChar) ++ byte '"' :: r) =
      some (some (encodeChars s), r) := by
  have hclose : readContent? (byte '"' :: r) = some (some [], r) :=
    readContent?_of_close (by rw [nextPiece?, if_pos rfl])
  rw [Spells.flatMap spells_quoteChar s, hclose]
  simp

/-- A string is read back after its opening quote. -/
theorem readString?_quote (s : String) (r : Bytes) :
    readString? (encodeChars (s.toList.flatMap quoteChar ++ ['"']) ++ r) =
      some (some s, r) := by
  rw [readString?, Utf8.encodeChars_append, List.append_assoc]
  have hquote : encodeChars ['"'] ++ r = byte '"' :: r := rfl
  rw [hquote, readContent?_quoted]
  have hdecode := Utf8.decode?_encode s
  rw [Utf8.encode] at hdecode
  simp [hdecode]

end MetricRelay.Json
