import MetricRelay.Proofs.Text.Utf8

/-!
# The order of texts

Texts are compared character by character.  This is the order of their bytes: of two
characters the larger one has the larger byte where their bytes first differ, and the
bytes of no character are the start of those of another one.

Main result:

- `Utf8.encode_lt_encode_iff`: texts stand in the order of their bytes.
-/

namespace MetricRelay

namespace Utf8

theorem toUInt8_lt_iff {m n : Nat} (hm : m < 256) (hn : n < 256) :
    m.toUInt8 < n.toUInt8 ↔ m < n := by
  rw [UInt8.lt_iff_toNat_lt, toNat_toUInt8 hm, toNat_toUInt8 hn]

theorem toUInt8_eq_iff {m n : Nat} (hm : m < 256) (hn : n < 256) :
    m.toUInt8 = n.toUInt8 ↔ m = n := by
  rw [← UInt8.toNat_inj, toNat_toUInt8 hm, toNat_toUInt8 hn]

/-- Bytes with numbers in them are compared by the numbers. -/
theorem cons_lt_cons_iff {m n : Nat} (hm : m < 256) (hn : n < 256) (r r' : Bytes) :
    m.toUInt8 :: r < n.toUInt8 :: r' ↔ m < n ∨ m = n ∧ r < r' := by
  rw [List.cons_lt_cons_iff, toUInt8_lt_iff hm hn, toUInt8_eq_iff hm hn]

/-- The bytes of a character, by how many there are. -/
theorem encodeChar_cases (c : Char) :
    (c.toNat < 0x80 ∧ encodeChar c = [c.toNat.toUInt8]) ∨
    ((0x80 ≤ c.toNat ∧ c.toNat < 0x800) ∧
      encodeChar c = [(0xc0 + c.toNat / 64).toUInt8, (0x80 + c.toNat % 64).toUInt8]) ∨
    ((0x800 ≤ c.toNat ∧ c.toNat < 0x10000) ∧
      encodeChar c = [(0xe0 + c.toNat / 4096).toUInt8, (0x80 + c.toNat / 64 % 64).toUInt8,
        (0x80 + c.toNat % 64).toUInt8]) ∨
    ((0x10000 ≤ c.toNat ∧ c.toNat < 0x110000) ∧
      encodeChar c = [(0xf0 + c.toNat / 262144).toUInt8, (0x80 + c.toNat / 4096 % 64).toUInt8,
        (0x80 + c.toNat / 64 % 64).toUInt8, (0x80 + c.toNat % 64).toUInt8]) := by
  have hbound := toNat_lt c
  unfold encodeChar
  simp only
  by_cases hone : c.toNat < 0x80
  · exact Or.inl ⟨hone, if_pos hone⟩
  · rw [if_neg hone]
    by_cases htwo : c.toNat < 0x800
    · exact Or.inr (Or.inl ⟨by omega, if_pos htwo⟩)
    · rw [if_neg htwo]
      by_cases hthree : c.toNat < 0x10000
      · exact Or.inr (Or.inr (Or.inl ⟨by omega, if_pos hthree⟩))
      · exact Or.inr (Or.inr (Or.inr ⟨by omega, if_neg hthree⟩))

/-- The bytes of two characters differ as the characters do, whatever follows them. -/
theorem encodeChar_append_lt {c d : Char} (h : c < d) (r r' : Bytes) :
    encodeChar c ++ r < encodeChar d ++ r' := by
  have hlt : c.toNat < d.toNat := h
  -- A character with fewer bytes has the smaller first byte; else the first difference decides.
  rcases encodeChar_cases c with ⟨hc, ec⟩ | ⟨hc, ec⟩ | ⟨hc, ec⟩ | ⟨hc, ec⟩ <;>
  rcases encodeChar_cases d with ⟨hd, ed⟩ | ⟨hd, ed⟩ | ⟨hd, ed⟩ | ⟨hd, ed⟩ <;>
  · rw [ec, ed]
    simp only [List.cons_append, List.nil_append]
    repeat rw [cons_lt_cons_iff (by omega) (by omega)]
    omega

/-- A common start makes no difference to the order. -/
theorem append_lt_append_iff (r s t : Bytes) : r ++ s < r ++ t ↔ s < t := by
  induction r with
  | nil => rfl
  | cons b r ih => simp [ih]

/-- Texts are in the order of their bytes. -/
theorem encodeChars_lt_encodeChars_iff {s t : List Char} :
    encodeChars s < encodeChars t ↔ s < t := by
  induction s generalizing t with
  | nil =>
    cases t with
    | nil => exact iff_of_false (List.lt_irrefl _) (List.lt_irrefl _)
    | cons d t =>
      refine iff_of_true ?_ (List.nil_lt_cons d t)
      have hfirst := decodeChar?_encodeChar d (encodeChars t)
      rw [encodeChars_cons]
      cases hbytes : encodeChar d ++ encodeChars t with
      | nil =>
        rw [hbytes] at hfirst
        cases hfirst
      | cons b r => exact List.nil_lt_cons b r
  | cons c s ih =>
    cases t with
    | nil => exact iff_of_false (List.not_lt_nil _) (List.not_lt_nil _)
    | cons d t =>
      rw [encodeChars_cons, encodeChars_cons, List.cons_lt_cons_iff]
      by_cases hcd : c = d
      · rw [hcd, append_lt_append_iff, ih]
        simp
      · by_cases hlt : c < d
        · exact iff_of_true (encodeChar_append_lt hlt _ _) (Or.inl hlt)
        · have hgt : d < c := by grind
          refine iff_of_false ?_ (by simp [hlt, hcd])
          exact List.lt_asymm (encodeChar_append_lt hgt _ _)

/-- Texts stand in the order of their bytes. -/
theorem encode_lt_encode_iff {s t : String} : encode s < encode t ↔ s < t :=
  encodeChars_lt_encodeChars_iff

end Utf8

end MetricRelay
