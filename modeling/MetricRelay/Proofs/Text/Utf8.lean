import MetricRelay.Text.Hex

/-!
# Texts and their bytes

Writing a text as bytes and reading it again gives the same text, because the
first byte of each character says how many bytes belong to it.  The bytes of a
character outside ASCII are all at least `0x80`, so that a reader of bytes never
takes one of them for a character of ASCII.

Main results:

- `Utf8.decode?_encode`: a text is read back from its bytes.
- `Utf8.le_of_mem_encodeChar`: the bytes of a character outside ASCII.
- `Hex.decode?_encode`: bytes are read back from their digits.
-/

namespace MetricRelay

namespace Utf8

/-- A number below 256 is the number of its byte. -/
theorem toNat_toUInt8 {n : Nat} (h : n < 256) : n.toUInt8.toNat = n := by
  show (UInt8.ofNat n).toNat = n
  rw [UInt8.toNat_ofNat']
  exact Nat.mod_eq_of_lt h

/-- A byte that carries six bits is read as them. -/
theorem continuation?_toUInt8 {n : Nat} (h : n < 64) :
    continuation? (0x80 + n).toUInt8 = some n := by
  unfold continuation?
  rw [toNat_toUInt8 (by omega), if_pos (by omega)]
  simp

/-- A character is the scalar value of its own code point. -/
theorem scalar?_toNat {least : Nat} {c : Char} (h : least ≤ c.toNat) :
    scalar? least c.toNat = some c := by
  have hvalid : c.toNat.isValidChar := c.valid
  unfold scalar?
  rw [dif_pos hvalid, if_pos h]
  rfl

/-- The characters end at `0x110000`. -/
theorem toNat_lt (c : Char) : c.toNat < 0x110000 := by
  rcases c.valid with h | h
  · exact Nat.lt_trans h (by decide)
  · exact h.2

/-- Four bytes are read as the bits that they carry. -/
theorem decodeChar?_four {a b c d n : Nat} (ha : a < 16) (hb : b < 64) (hc : c < 64) (hd : d < 64)
    (hn : a * 262144 + b * 4096 + c * 64 + d = n) (r : Bytes) :
    decodeChar? ((0xf0 + a).toUInt8 :: (0x80 + b).toUInt8 :: (0x80 + c).toUInt8 ::
      (0x80 + d).toUInt8 :: r) = (scalar? 0x10000 n).map (·, r) := by
  rw [decodeChar?, toNat_toUInt8 (by omega), if_neg (by omega), if_neg (by omega),
    if_neg (by omega), if_neg (by omega)]
  simp only [continuation?_toUInt8 hb, continuation?_toUInt8 hc, continuation?_toUInt8 hd,
    Nat.add_sub_cancel_left, Option.bind_eq_bind]
  -- The sum is replaced before anything is evaluated: its products are out of reach.
  rw [Option.bind_some, Option.bind_some, Option.bind_some, hn]
  cases scalar? 0x10000 n <;> rfl

/-- A character is read back from its bytes, whatever follows them. -/
theorem decodeChar?_encodeChar (c : Char) (r : Bytes) :
    decodeChar? (encodeChar c ++ r) = some (c, r) := by
  have hlt := toNat_lt c
  unfold encodeChar
  simp only
  split
  · rename_i hone
    simp only [List.cons_append, List.nil_append, decodeChar?]
    rw [toNat_toUInt8 (by omega), if_pos hone, scalar?_toNat (Nat.zero_le _)]
    rfl
  · split
    · rename_i hone htwo
      simp only [List.cons_append, List.nil_append, decodeChar?]
      rw [toNat_toUInt8 (by omega), if_neg (by omega), if_neg (by omega), if_pos (by omega),
        continuation?_toUInt8 (Nat.mod_lt _ (by decide))]
      have hcode : (0xc0 + c.toNat / 64 - 0xc0) * 64 + c.toNat % 64 = c.toNat := by omega
      simp only [Option.bind_eq_bind, Option.bind_some, Option.pure_def, hcode]
      rw [scalar?_toNat (by omega)]
      rfl
    · split
      · rename_i hone htwo hthree
        simp only [List.cons_append, List.nil_append, decodeChar?]
        rw [toNat_toUInt8 (by omega), if_neg (by omega), if_neg (by omega), if_neg (by omega),
          if_pos (by omega), continuation?_toUInt8 (Nat.mod_lt _ (by decide)),
          continuation?_toUInt8 (Nat.mod_lt _ (by decide))]
        have hcode : (0xe0 + c.toNat / 4096 - 0xe0) * 4096 + c.toNat / 64 % 64 * 64 +
            c.toNat % 64 = c.toNat := by omega
        simp only [Option.bind_eq_bind, Option.bind_some, Option.pure_def, hcode]
        rw [scalar?_toNat (by omega)]
        rfl
      · rename_i hone htwo hthree
        have hcode : c.toNat / 262144 * 262144 + c.toNat / 4096 % 64 * 4096 +
            c.toNat / 64 % 64 * 64 + c.toNat % 64 = c.toNat := by omega
        simp only [List.cons_append, List.nil_append]
        rw [decodeChar?_four (by omega) (by omega) (by omega) (by omega) hcode,
          scalar?_toNat (by omega)]
        rfl

/-- A list of characters is read back from its bytes. -/
theorem decodeChars?_encodeChars (s : List Char) : decodeChars? (encodeChars s) = some s := by
  induction s with
  | nil =>
    rw [decodeChars?]
    rfl
  | cons c r ih =>
    have hchar := decodeChar?_encodeChar c (encodeChars r)
    rw [encodeChars, List.flatMap_cons]
    rw [decodeChars?]
    split
    · rename_i hnone
      rw [encodeChars] at hchar
      rw [hchar] at hnone
      cases hnone
    · rename_i d t hsome
      rw [encodeChars] at hchar
      rw [hchar] at hsome
      simp only [Option.some.injEq, Prod.mk.injEq] at hsome
      rcases hsome with ⟨rfl, rfl⟩
      rw [encodeChars] at ih
      rw [ih]
      rfl

/-- A text is read back from its bytes. -/
@[simp]
theorem decode?_encode (s : String) : decode? (encode s) = some s := by
  rw [decode?, encode, decodeChars?_encodeChars, Option.map_some, String.ofList_toList]

theorem encodeChars_append (s t : List Char) :
    encodeChars (s ++ t) = encodeChars s ++ encodeChars t :=
  List.flatMap_append

theorem encodeChars_cons (c : Char) (s : List Char) :
    encodeChars (c :: s) = encodeChar c ++ encodeChars s :=
  List.flatMap_cons

/-- A character of ASCII is one byte. -/
theorem encodeChar_of_lt {c : Char} (h : c.toNat < 0x80) : encodeChar c = [c.toNat.toUInt8] := by
  unfold encodeChar
  simp [h]

/-- A character of ASCII is among the bytes of a text that it is in. -/
theorem mem_encode {c : Char} {s : String} (hc : c ∈ s.toList) (hascii : c.toNat < 0x80) :
    c.toNat.toUInt8 ∈ encode s := by
  apply List.mem_flatMap.2
  refine ⟨c, hc, ?_⟩
  rw [encodeChar_of_lt hascii]
  exact List.mem_singleton_self _

/-- The bytes of a character outside ASCII. -/
theorem le_of_mem_encodeChar {c : Char} {b : UInt8} (h : 0x80 ≤ c.toNat) (hb : b ∈ encodeChar c) :
    0x80 ≤ b.toNat := by
  have hlt := toNat_lt c
  unfold encodeChar at hb
  simp only at hb
  rw [if_neg (by omega)] at hb
  split at hb
  · simp only [List.mem_cons, List.not_mem_nil, or_false] at hb
    rcases hb with rfl | rfl <;> rw [toNat_toUInt8 (by omega)] <;> omega
  · split at hb
    · simp only [List.mem_cons, List.not_mem_nil, or_false] at hb
      rcases hb with rfl | rfl | rfl <;> rw [toNat_toUInt8 (by omega)] <;> omega
    · simp only [List.mem_cons, List.not_mem_nil, or_false] at hb
      rcases hb with rfl | rfl | rfl | rfl <;> rw [toNat_toUInt8 (by omega)] <;> omega

end Utf8

namespace Hex

open Utf8 (Bytes)

/-- A digit in lower case is read as its number. -/
theorem digitValue?_digit {n : Nat} (h : n < 16) : digitValue? (digit n) = some n := by
  have hall : ∀ i : Fin 16, digitValue? (digit i) = some i.val := by decide
  exact hall ⟨n, h⟩

/-- Bytes that are encoded one by one are decoded. -/
theorem decodeChars?_flatMap (bytes : Bytes) :
    decodeChars? (bytes.flatMap encodeByte) = some bytes := by
  induction bytes with
  | nil => rfl
  | cons b r ih =>
    have hlt : b.toNat < 256 := b.toNat_lt
    have hvalue : b.toNat / 16 * 16 + b.toNat % 16 = b.toNat := by omega
    rw [List.flatMap_cons, encodeByte]
    simp only [List.cons_append, List.nil_append, decodeChars?]
    rw [digitValue?_digit (by omega), digitValue?_digit (by omega), ih]
    simp only [Option.bind_eq_bind, Option.bind_some, Option.pure_def, hvalue]
    rw [show b.toNat.toUInt8 = b from UInt8.ofNat_toNat]

/-- Bytes are read back from their digits. -/
@[simp]
theorem decode?_encode (bytes : Bytes) : decode? (encode bytes) = some bytes := by
  rw [decode?, encode, String.toList_ofList, decodeChars?_flatMap]

end Hex

end MetricRelay
