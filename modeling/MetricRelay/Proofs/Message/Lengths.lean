import MetricRelay.Proofs.Message.RoundTrip
import MetricRelay.Proofs.Text.Percent

/-!
# How long a question gets

A text that stands in a path is not longer than the segment that it is read from, and
it grows at most sixfold when it is quoted.  So the body that asks for a metric is not
much longer than a path that does.

Main results:

- `Percent.Writes.length_le`: a text is not longer than a segment for it.
- `Message.length_query_le`: the body of a question.
-/

namespace MetricRelay

/-! ## Characters -/

namespace Utf8

/-- A scalar value is the number it was decoded from. -/
theorem toNat_of_scalar? {least n : Nat} {c : Char} (h : scalar? least n = some c) :
    c.toNat = n := by
  unfold scalar? at h
  by_cases hvalid : n.isValidChar
  · rw [dif_pos hvalid] at h
    by_cases hleast : least ≤ n
    · rw [if_pos hleast] at h
      cases h
      rfl
    · rw [if_neg hleast] at h
      cases h
  · rw [dif_neg hvalid] at h
    cases h

/-- A continuation byte has six bits. -/
theorem lt_of_continuation? {b : UInt8} {n : Nat} (h : continuation? b = some n) : n < 0x40 := by
  unfold continuation? at h
  split at h
  · have hn := Option.some.inj h
    omega
  · cases h

/-- How many bytes a character takes is settled by its code point. -/
theorem length_encodeChar (c : Char) : (encodeChar c).length =
    if c.toNat < 0x80 then 1 else if c.toNat < 0x800 then 2
      else if c.toNat < 0x10000 then 3 else 4 := by
  unfold encodeChar
  simp only
  repeat' split
  all_goals rfl

/-- A character is not longer than the bytes that it is read from. -/
theorem length_le_of_decodeChar? {s r : Bytes} {c : Char} (h : decodeChar? s = some (c, r)) :
    (encodeChar c).length + r.length ≤ s.length := by
  rw [length_encodeChar]
  -- The first byte says how many bytes are read, and how large the code point gets at most.
  unfold decodeChar? at h
  split at h
  · cases h
  · simp only [Option.bind_eq_bind, Option.pure_def] at h
    repeat' split at h
    all_goals
      simp only [Option.map_eq_some_iff, Option.bind_eq_some_iff, Option.some.injEq,
        Prod.mk.injEq, reduceCtorEq] at h
    all_goals grind [toNat_of_scalar?, → lt_of_continuation?]

/-- A text is not longer than the bytes that it is read from. -/
theorem length_le_of_decodeChars? {s : Bytes} {t : List Char} (h : decodeChars? s = some t) :
    (encodeChars t).length ≤ s.length := by
  induction t generalizing s with
  | nil => exact Nat.zero_le _
  | cons c t ih =>
    rw [decodeChars?] at h
    split at h
    · split at h <;> cases h
    · rename_i d r hchar
      rcases Option.map_eq_some_iff.1 h with ⟨t', hrest, ht⟩
      cases ht
      have hone := length_le_of_decodeChar? hchar
      have hlength := ih hrest
      rw [encodeChars, List.flatMap_cons, List.length_append]
      rw [encodeChars] at hlength
      omega

end Utf8

/-! ## Segments -/

namespace Percent

/-- Every escape gets shorter. -/
theorem length_unescape_le (s : Utf8.Bytes) : (unescape s).length ≤ s.length := by
  induction s using unescape.induct with
  | case1 => simp [unescape]
  | case2 b r v hescape ih =>
    rw [unescape, hescape]
    rw [List.length_drop] at ih
    simp only [List.length_cons]
    omega
  | case3 b r hescape ih =>
    rw [unescape, hescape]
    exact Nat.succ_le_succ ih

/-- A text is not longer than a segment for it. -/
theorem Writes.length_le {segment text : String} (h : Writes segment text) :
    (Utf8.encode text).length ≤ (Utf8.encode segment).length := by
  rcases Option.map_eq_some_iff.1 h.decode with ⟨t, ht, rfl⟩
  rw [Utf8.encode, String.toList_ofList]
  exact Nat.le_trans (Utf8.length_le_of_decodeChars? ht) (length_unescape_le _)

end Percent

/-! ## Quoted texts -/

namespace Json

open Utf8 (encode encodeChar encodeChars encodeChars_append encodeChars_cons length_encodeChar)

/-- A character grows to at most six bytes when it is quoted. -/
theorem length_quoteChar_le (c : Char) :
    (encodeChars (quoteChar c)).length ≤ 6 * (encodeChar c).length := by
  have hpositive : 1 ≤ (encodeChar c).length := by
    rw [length_encodeChar]
    repeat' split
    all_goals decide
  have hescape {s : List Char} (hplain : s.all (fun d => d.toNat < 0x80) = true)
      (hs : s.length ≤ 6) : (encodeChars s).length ≤ 6 * (encodeChar c).length := by
    have hbytes : encodeChars s = s.map byte :=
      encodeChars_eq_map fun d hd => by simpa using List.all_eq_true.1 hplain d hd
    rw [hbytes, List.length_map]
    omega
  unfold quoteChar
  iterate 7
    split
    · exact hescape (by decide) (by decide)
  split
  · rename_i hcontrol
    have hhigh : (Hex.digit (c.toNat / 16)).toNat < 0x80 := Percent.toNat_digit_lt (by omega)
    have hlow : (Hex.digit (c.toNat % 16)).toNat < 0x80 := Percent.toNat_digit_lt (by omega)
    refine hescape ?_ (Nat.le_refl 6)
    simp [hhigh, hlow]
  · have hself : encodeChars [c] = encodeChar c := List.flatMap_singleton _ _
    rw [hself]
    omega

/-- A quoted text is at most six times as long, but for the quotes around it. -/
theorem length_quote_le (s : String) :
    (encodeChars (quote s)).length ≤ 6 * (encode s).length + 2 := by
  have hcontent (s : List Char) :
      (encodeChars (s.flatMap quoteChar)).length ≤ 6 * (encodeChars s).length := by
    induction s with
    | nil => exact Nat.le_refl _
    | cons c s ih =>
      have hone := length_quoteChar_le c
      rw [List.flatMap_cons, encodeChars_append, encodeChars_cons, List.length_append,
        List.length_append]
      omega
  have hs := hcontent s.toList
  rw [quote, encodeChars_append, encodeChars_cons, List.length_append, List.length_append]
  show 1 + _ + 1 ≤ _
  rw [encode]
  omega

end Json

/-! ## Questions -/

namespace Message

/-- The body of a question is not much longer than the texts in it. -/
theorem length_query_le (id kind : String) : (Utf8.encodeChars (query id kind).json).length ≤
    6 * ((Utf8.encode id).length + (Utf8.encode kind).length) + 19 := by
  have hid := Json.length_quote_le id
  have hkind := Json.length_quote_le kind
  have hfirst : (Utf8.encodeChars (Json.quote "id")).length = 4 := by decide
  have hsecond : (Utf8.encodeChars (Json.quote "type")).length = 6 := by decide
  simp only [json, members, query, Json.object, Json.member, Json.separated, Option.map_none,
    Option.toList_none, List.append_nil, Utf8.encodeChars_append, Utf8.encodeChars_cons,
    List.length_append, hfirst, hsecond]
  show 1 + (4 + (1 + _) + (1 + 0) + (6 + (1 + _))) + (1 + 0) ≤ _
  omega

end Message

end MetricRelay
