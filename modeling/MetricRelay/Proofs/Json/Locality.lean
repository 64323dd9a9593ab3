import MetricRelay.Proofs.Json.Records

/-!
# Readers look no further than what they take

What a reader of tokens takes from the front of some bytes it takes again when other
bytes follow, as long as these do not go on with a number.  In a string this needs a
closer look: whether half of a surrogate pair stands alone is settled by the bytes after
it, but these are still in the string.

Main definitions:

- `Takes` and `IsLocal`: a reader takes some bytes, whatever ends them, and takes
  nothing but such bytes.
- `Token.mark?`: the byte of a bracket, a comma or a colon.

Main results:

- `token?_eq_some_iff`: a bracket, a comma or a colon, with blanks before it.
- `isLocal_readString?` and `readNumber?_local`: strings and numbers.
- `isLocal_token?`: the next token.
-/

namespace MetricRelay.Json

open Utf8 (Bytes)

/-- A reader takes some bytes as `x`, whatever ends them. -/
def Takes {α : Type} (read : Bytes → Option (α × Bytes)) (b : Bytes) (x : α) : Prop :=
  ∀ u, Ends u → read (b ++ u) = some (x, u)

/-- What a reader takes does not depend on what follows. -/
def IsLocal {α : Type} (read : Bytes → Option (α × Bytes)) : Prop :=
  ∀ s x r, read s = some (x, r) → ∃ b, s = b ++ r ∧ Takes read b x

section

variable {α β : Type} {read other : Bytes → Option (α × Bytes)}

/-- What is made of the result makes no difference to where a reader stops. -/
theorem IsLocal.map (h : IsLocal read) (f : α → β) :
    IsLocal fun s => (read s).map fun x => (f x.1, x.2) := by
  intro s y r hread
  rcases Option.map_eq_some_iff.1 hread with ⟨⟨x, t⟩, hx, heq⟩
  cases heq
  rcases h s x t hx with ⟨b, hs, htakes⟩
  refine ⟨b, hs, fun u hu => ?_⟩
  show (read (b ++ u)).map _ = _
  rw [htakes u hu]
  rfl

/-- A choice between local readers that does not depend on the bytes is local. -/
theorem IsLocal.ite {c : Prop} [Decidable c] (h : IsLocal read) (h' : IsLocal other) :
    IsLocal fun s => if c then read s else other s := by
  by_cases hc : c
  · simp only [if_pos hc]
    exact h
  · simp only [if_neg hc]
    exact h'

/-- A reader that takes nothing. -/
theorem isLocal_some (x : α) : IsLocal fun s => some (x, s) := by
  intro s y r h
  cases h
  exact ⟨[], rfl, fun _ _ => rfl⟩

end

/-! ## Numbers -/

/-- Some bytes do not start with certain ones. -/
def HeadNot (p : UInt8 → Bool) (s : Bytes) : Prop := ∀ b ∈ s.head?, p b = false

section

variable {p : UInt8 → Bool} {s r u d : Bytes}

/-- What follows some bytes only starts the whole if there are none. -/
theorem headNot_append (hs : HeadNot p s) (hu : HeadNot p u) : HeadNot p (s ++ u) := by
  cases s with
  | nil => exact hu
  | cons b t => exact hs

/-- What ends a number does not go on with bytes of one. -/
theorem Ends.headNot (h : Ends u) (himp : ∀ b, p b = true → isNumberByte b = true) :
    HeadNot p u := by
  intro b hb
  cases hp : p b with
  | false => rfl
  | true =>
    have hnumber := h b hb
    rw [himp b hp] at hnumber
    cases hnumber

/-- The byte that starts a fraction. -/
def isPointByte (b : UInt8) : Bool := b = byte '.'

/-- The bytes that start an exponent. -/
def isExponentByte (b : UInt8) : Bool := b = byte 'e' || b = byte 'E'

/-- Digits are taken up to the first byte that is none. -/
theorem readDigits?_append (hd : d.all isDigitByte = true) (hne : d ≠ [])
    (hu : HeadNot isDigitByte u) : readDigits? (d ++ u) = some (d, u) := by
  have hempty : d.isEmpty = false := by
    simpa [List.isEmpty_iff] using hne
  rw [readDigits?, takeWhile_append_of_head? hd hu, dropWhile_append_of_head? hd hu, hempty]
  rfl

/-- What is taken as digits is the start of the bytes, and is not empty. -/
theorem readDigits?_local (h : readDigits? s = some (d, r)) :
    s = d ++ r ∧ d.all isDigitByte = true ∧ d ≠ [] := by
  unfold readDigits? at h
  split at h
  · cases h
  · rename_i hne
    cases h
    refine ⟨List.takeWhile_append_dropWhile.symm, List.all_takeWhile, ?_⟩
    simpa [List.isEmpty_iff] using hne

/-- The whole part of a number is taken again, before anything but a digit. -/
theorem readWhole?_local (h : readWhole? s = some (d, r)) :
    s = d ++ r ∧ d ≠ [] ∧ ∀ u, HeadNot isDigitByte u → readWhole? (d ++ u) = some (d, u) := by
  rcases Option.filter_eq_some_iff.1 h with ⟨hdigits, hzero⟩
  rcases readDigits?_local hdigits with ⟨hs, hall, hne⟩
  refine ⟨hs, hne, fun u hu => ?_⟩
  rw [readWhole?, readDigits?_append hall hne hu, Option.filter_some, if_pos hzero]

/-- A part of a number that may be missing: it starts with certain bytes, and is taken
where what follows starts neither with those nor with a digit. -/
def IsPart (p : UInt8 → Bool) (read : Bytes → Option (Bytes × Bytes)) : Prop :=
  ∀ s d r, read s = some (d, r) → s = d ++ r ∧ (∀ b ∈ d.head?, p b = true) ∧
    ∀ u, HeadNot isDigitByte u → HeadNot p u → read (d ++ u) = some (d, u)

/-- A fraction starts with a point. -/
theorem isPart_readFraction? : IsPart isPointByte readFraction? := by
  have hmissing : ∀ u, HeadNot isPointByte u → readFraction? u = some ([], u) := by
    intro u hu
    cases u with
    | nil => rfl
    | cons b t =>
      have hb : ¬ b = byte '.' := of_decide_eq_false (hu b rfl)
      rw [readFraction?, if_neg hb]
  intro s d r h
  unfold readFraction? at h
  split at h
  · cases h
    exact ⟨rfl, by simp, fun u _ hu => hmissing u hu⟩
  · rename_i b t
    split at h
    · rename_i hb
      rcases Option.map_eq_some_iff.1 h with ⟨⟨f, t'⟩, hdigits, heq⟩
      cases heq
      rcases readDigits?_local hdigits with ⟨rfl, hall, hne⟩
      refine ⟨rfl, ?_, fun u hu _ => ?_⟩
      · rintro c ⟨⟩
        exact decide_eq_true hb
      · rw [List.cons_append, readFraction?, if_pos hb, readDigits?_append hall hne hu]
        rfl
    · cases h
      exact ⟨rfl, by simp, fun u _ hu => hmissing u hu⟩

/-- The sign is among the bytes that are there, if there are any. -/
theorem readSign_append (hs : s ≠ []) (u : Bytes) :
    readSign (s ++ u) = ((readSign s).1, (readSign s).2 ++ u) := by
  cases s with
  | nil => exact absurd rfl hs
  | cons b t =>
    rw [List.cons_append, readSign, readSign]
    split <;> rfl

/-- Bytes are their sign and what is left after it. -/
theorem readSign_eq (s : Bytes) : s = (readSign s).1 ++ (readSign s).2 := by
  cases s with
  | nil => rfl
  | cons b t =>
    rw [readSign]
    split <;> rfl

/-- A sign is read from what it stands before. -/
theorem readSign_local (h : (readSign s).2 = d ++ r) (hne : d ≠ []) (u : Bytes) :
    readSign ((readSign s).1 ++ (d ++ u)) = ((readSign s).1, d ++ u) := by
  have hfront : (readSign s).1 ++ d ≠ [] := by
    intro hnil
    exact hne (List.append_eq_nil_iff.1 hnil).2
  have hs : s = (readSign s).1 ++ d ++ r := by
    rw [List.append_assoc, ← h]
    exact readSign_eq s
  have hsign := readSign_append hfront r
  rw [← hs] at hsign
  have hfirst : (readSign ((readSign s).1 ++ d)).1 = (readSign s).1 :=
    (congrArg Prod.fst hsign).symm
  have hsecond := readSign_eq ((readSign s).1 ++ d)
  rw [hfirst] at hsecond
  rw [← List.append_assoc, readSign_append hfront, hfirst,
    ← List.append_cancel_left hsecond]

/-- An exponent starts with its letter. -/
theorem isPart_readExponentPart? : IsPart isExponentByte readExponentPart? := by
  have hmissing : ∀ u, HeadNot isExponentByte u → readExponentPart? u = some ([], u) := by
    intro u hu
    cases u with
    | nil => rfl
    | cons b t =>
      have hb := hu b rfl
      simp only [isExponentByte, Bool.or_eq_false_iff, decide_eq_false_iff_not] at hb
      rw [readExponentPart?, if_neg (not_or_intro hb.1 hb.2)]
  intro s d r h
  unfold readExponentPart? at h
  split at h
  · cases h
    exact ⟨rfl, by simp, fun u _ hu => hmissing u hu⟩
  · rename_i b t
    split at h
    · rename_i hb
      rcases Option.map_eq_some_iff.1 h with ⟨⟨e, t'⟩, hdigits, heq⟩
      cases heq
      rcases readDigits?_local hdigits with ⟨hrest, hall, hne⟩
      refine ⟨?_, ?_, fun u hu _ => ?_⟩
      · rw [List.cons_append, List.append_assoc, ← hrest, ← readSign_eq]
      · rintro c ⟨⟩
        simpa [isExponentByte] using hb
      · rw [List.cons_append, List.append_assoc, readExponentPart?, if_pos hb]
        simp only [readSign_local hrest hne u, readDigits?_append hall hne hu]
        rfl
    · cases h
      exact ⟨rfl, by simp, fun u _ hu => hmissing u hu⟩

theorem headNot_of_head? {q : UInt8 → Bool} (h : ∀ b ∈ d.head?, q b = true)
    (hq : ∀ b, q b = true → p b = false) : HeadNot p d := fun b hb => hq b (h b hb)

/-- A number without its sign is taken again, before anything that ends it. -/
theorem readMagnitude?_local (h : readMagnitude? s = some (d, r)) :
    s = d ++ r ∧ d ≠ [] ∧ ∀ u, Ends u → readMagnitude? (d ++ u) = some (d, u) := by
  simp only [readMagnitude?, Option.bind_eq_bind, Option.pure_def, Option.bind_eq_some_iff,
    Option.some.injEq, Prod.mk.injEq, Prod.exists] at h
  rcases h with ⟨whole, t, hwhole, fraction, t', hfraction, exponent, t'', hexponent, rfl, rfl⟩
  rcases readWhole?_local hwhole with ⟨rfl, hne, hwholeTaken⟩
  rcases isPart_readFraction? _ _ _ hfraction with ⟨rfl, hpoint, hfractionTaken⟩
  rcases isPart_readExponentPart? _ _ _ hexponent with ⟨rfl, hletter, hexponentTaken⟩
  refine ⟨by simp only [List.append_assoc], by simp [hne], fun u hu => ?_⟩
  have hdigit : HeadNot isDigitByte u := hu.headNot fun b hb => by simp [isNumberByte, hb]
  have hpoint' : HeadNot isPointByte u := hu.headNot fun b hb => by
    simp only [isPointByte, decide_eq_true_eq] at hb
    simp [isNumberByte, hb]
  have hletter' : HeadNot isExponentByte u := hu.headNot fun b hb => by
    simp only [isExponentByte, Bool.or_eq_true, decide_eq_true_eq] at hb
    rcases hb with hb | hb <;> simp [isNumberByte, hb]
  have hexponentDigit : HeadNot isDigitByte exponent := headNot_of_head? hletter fun b hb => by
    simp only [isExponentByte, Bool.or_eq_true, decide_eq_true_eq] at hb
    rcases hb with rfl | rfl <;> rfl
  have hexponentPoint : HeadNot isPointByte exponent := headNot_of_head? hletter fun b hb => by
    simp only [isExponentByte, Bool.or_eq_true, decide_eq_true_eq] at hb
    rcases hb with rfl | rfl <;> rfl
  have hfractionDigit : HeadNot isDigitByte fraction := headNot_of_head? hpoint fun b hb => by
    rw [of_decide_eq_true hb]
    rfl
  have hrest := headNot_append hexponentDigit hdigit
  simp only [List.append_assoc, readMagnitude?, Option.bind_eq_bind,
    hwholeTaken _ (headNot_append hfractionDigit hrest), Option.bind_some,
    hfractionTaken _ hrest (headNot_append hexponentPoint hpoint'),
    hexponentTaken _ hdigit hletter', Option.pure_def]

/-- A number is taken again, before anything that ends it. -/
theorem readNumber?_local (h : readNumber? s = some (d, r)) :
    s = d ++ r ∧ d ≠ [] ∧ ∀ u, Ends u → readNumber? (d ++ u) = some (d, u) := by
  unfold readNumber? at h
  split at h
  · cases h
  · rename_i b t
    split at h
    · rename_i hb
      rcases Option.map_eq_some_iff.1 h with ⟨⟨m, t'⟩, hmagnitude, heq⟩
      cases heq
      rcases readMagnitude?_local hmagnitude with ⟨rfl, -, htakes⟩
      refine ⟨rfl, List.cons_ne_nil _ _, fun u hu => ?_⟩
      rw [List.cons_append, readNumber?, if_pos hb, htakes u hu]
      rfl
    · rename_i hb
      rcases readMagnitude?_local h with ⟨hs, hne, htakes⟩
      refine ⟨hs, hne, fun u hu => ?_⟩
      rcases List.exists_cons_of_ne_nil hne with ⟨c, m, rfl⟩
      cases hs
      have htaken := htakes u hu
      rw [List.cons_append] at htaken ⊢
      rw [readNumber?, if_neg hb, htaken]

end

/-! ## Strings -/

section

variable {s r t : Bytes}

/-- Four hexadecimal digits are taken again, whatever follows. -/
theorem readHex4?_local {n : Nat} (h : readHex4? s = some (n, r)) :
    ∃ b, s = b ++ r ∧ ∀ u, readHex4? (b ++ u) = some (n, u) := by
  unfold readHex4? at h
  split at h
  · rename_i b c d e t
    simp only [Option.bind_eq_bind, Option.pure_def, Option.bind_eq_some_iff, Option.some.injEq,
      Prod.mk.injEq] at h
    rcases h with ⟨i, hi, j, hj, k, hk, l, hl, hn, rfl⟩
    refine ⟨[b, c, d, e], rfl, fun u => ?_⟩
    simp only [List.cons_append, List.nil_append, readHex4?, hi, hj, hk, hl, Option.bind_eq_bind,
      Option.bind_some, Option.pure_def, hn]
  · cases h

/-- The second half of a pair of surrogates is taken again, whatever follows. -/
theorem readLowSurrogate?_local {n : Nat} (h : readLowSurrogate? s = some (n, r)) :
    ∃ b, s = b ++ r ∧ ∀ u, readLowSurrogate? (b ++ u) = some (n, u) := by
  unfold readLowSurrogate? at h
  split at h
  · rename_i b c t
    split at h
    · rename_i hescape
      rcases Option.filter_eq_some_iff.1 h with ⟨hhex, hrange⟩
      rcases readHex4?_local hhex with ⟨d, rfl, htakes⟩
      refine ⟨b :: c :: d, rfl, fun u => ?_⟩
      rw [List.cons_append, List.cons_append, readLowSurrogate?, if_pos hescape, htakes u,
        Option.filter_some, if_pos hrange]
    · cases h
  · cases h

/-- A second half of a surrogate pair that stands alone is a piece. -/
theorem nextPiece?_of_readLowSurrogate? {n : Nat} (h : readLowSurrogate? s = some (n, r)) :
    nextPiece? s = some (.lone, r) := by
  unfold readLowSurrogate? at h
  split at h
  · rename_i b c t
    split at h
    · rename_i hescape
      rcases Option.filter_eq_some_iff.1 h with ⟨hhex, hrange⟩
      rcases hescape with ⟨rfl, rfl⟩
      simp only [Bool.and_eq_true, decide_eq_true_eq] at hrange
      have hpiece : nextPiece? (byte '\\' :: byte 'u' :: t) = readCodeEscape? t := rfl
      have hhigh : ¬ (0xd800 ≤ n ∧ n ≤ 0xdbff) := by omega
      rw [hpiece, readCodeEscape?, hhex]
      simp only [if_neg hhigh, if_pos hrange]
    · cases h
  · cases h

/-- The first half of such a pair looks at what follows: it is taken again where that does
not complete it either. -/
theorem readCodeEscape?_local {p : Piece} (h : readCodeEscape? s = some (p, r)) :
    ∃ b, s = b ++ r ∧ ∀ u, (readLowSurrogate? r = none → readLowSurrogate? u = none) →
      readCodeEscape? (b ++ u) = some (p, u) := by
  unfold readCodeEscape? at h
  split at h
  · cases h
  · rename_i n t hhex
    rcases readHex4?_local hhex with ⟨b, rfl, htakes⟩
    split at h
    · rename_i hhigh
      split at h
      · rename_i m t' hlow
        cases h
        rcases readLowSurrogate?_local hlow with ⟨c, rfl, htakesLow⟩
        refine ⟨b ++ c, (List.append_assoc b c r).symm, fun u _ => ?_⟩
        rw [List.append_assoc, readCodeEscape?, htakes]
        simp only [if_pos hhigh, htakesLow]
      · rename_i hlow
        cases h
        refine ⟨b, rfl, fun u hu => ?_⟩
        rw [readCodeEscape?, htakes]
        simp only [if_pos hhigh, hu hlow]
    · rename_i hhigh
      split at h
      · rename_i hlow
        cases h
        refine ⟨b, rfl, fun u _ => ?_⟩
        rw [readCodeEscape?, htakes]
        simp only [if_neg hhigh, if_pos hlow]
      · rename_i hlow
        cases h
        refine ⟨b, rfl, fun u _ => ?_⟩
        rw [readCodeEscape?, htakes]
        simp only [if_neg hhigh, if_neg hlow]

/-- A piece is taken again where the second half of a surrogate pair follows it only if
it did before. -/
theorem nextPiece?_local {p : Piece} (h : nextPiece? s = some (p, r)) :
    ∃ b, s = b ++ r ∧ ∀ u, (readLowSurrogate? r = none → readLowSurrogate? u = none) →
      nextPiece? (b ++ u) = some (p, u) := by
  unfold nextPiece? at h
  split at h
  · cases h
  · rename_i c t
    split at h
    · rename_i hquote
      cases h
      refine ⟨[c], rfl, fun u _ => ?_⟩
      rw [List.singleton_append, nextPiece?, if_pos hquote]
    · rename_i hquote
      split at h
      · rename_i hescape
        unfold readEscape? at h
        split at h
        · cases h
        · rename_i d t'
          split at h
          · rename_i hu
            rcases readCodeEscape?_local h with ⟨b, rfl, htakes⟩
            refine ⟨c :: d :: b, rfl, fun u hlow => ?_⟩
            rw [List.cons_append, List.cons_append, nextPiece?, if_neg hquote, if_pos hescape,
              readEscape?, if_pos hu, htakes u hlow]
          · rename_i hu
            rcases Option.map_eq_some_iff.1 h with ⟨v, hv, heq⟩
            cases heq
            refine ⟨[c, d], rfl, fun u _ => ?_⟩
            rw [List.cons_append, List.singleton_append, nextPiece?, if_neg hquote,
              if_pos hescape, readEscape?, if_neg hu, hv]
            rfl
      · rename_i hescape
        split at h
        · cases h
        · rename_i hcontrol
          cases h
          refine ⟨[c], rfl, fun u _ => ?_⟩
          rw [List.singleton_append, nextPiece?, if_neg hquote, if_neg hescape, if_neg hcontrol]

/-- Whether the rest of a string starts with the second half of a surrogate pair is seen
in what is taken of it. -/
theorem readLowSurrogate?_of_content {b u : Bytes} {x : Option Bytes}
    (h : readContent? (b ++ u) = some (x, u)) (hr : readLowSurrogate? (b ++ r) = none) :
    readLowSurrogate? (b ++ u) = none := by
  cases hlow : readLowSurrogate? (b ++ u) with
  | none => rfl
  | some y =>
    rcases y with ⟨n, t⟩
    have hlength : u.length ≤ t.length := by
      rw [readContent?, nextPiece?_of_readLowSurrogate? hlow] at h
      rcases Option.map_eq_some_iff.1 h with ⟨⟨z, w⟩, hrest, heq⟩
      cases heq
      exact length_le_of_readContent? hrest
    rcases readLowSurrogate?_local hlow with ⟨c, hsplit, htakes⟩
    -- The escape is not longer than what is taken, so it stands in front of `r` as well.
    rcases List.append_eq_append_iff.1 hsplit with ⟨d, hc, hu⟩ | ⟨d, hb, ht⟩
    · have hd : d = [] := by
        have hcount := congrArg List.length hu
        rw [List.length_append] at hcount
        exact List.length_eq_zero_iff.1 (by omega)
      rw [hd, List.append_nil] at hc
      rw [← hc, htakes] at hr
      cases hr
    · rw [hb, List.append_assoc, htakes] at hr
      cases hr

/-- An escape never closes the string. -/
theorem readCodeEscape?_ne_close (s r : Bytes) : readCodeEscape? s ≠ some (.close, r) := by
  unfold readCodeEscape?
  repeat' split
  all_goals simp

/-- A string ends with a quote. -/
theorem eq_of_nextPiece?_close (h : nextPiece? s = some (.close, r)) : s = byte '"' :: r := by
  unfold nextPiece? at h
  split at h
  · cases h
  · split at h
    · rename_i hquote
      cases h
      rw [hquote]
    · split at h
      · unfold readEscape? at h
        split at h
        · cases h
        · split at h
          · exact absurd h (readCodeEscape?_ne_close _ _)
          · rcases Option.map_eq_some_iff.1 h with ⟨v, -, heq⟩
            cases heq
      · split at h <;> cases h

/-- A piece before the rest of a string is taken again before the same rest. -/
theorem nextPiece?_before_content {p : Piece} {b : Bytes} {x : Option Bytes}
    (h : nextPiece? s = some (p, b ++ r)) (htakes : ∀ u, readContent? (b ++ u) = some (x, u)) :
    ∃ c, s = c ++ (b ++ r) ∧ ∀ u, nextPiece? (c ++ (b ++ u)) = some (p, b ++ u) := by
  rcases nextPiece?_local h with ⟨c, hs, hpiece⟩
  exact ⟨c, hs, fun u => hpiece _ (readLowSurrogate?_of_content (htakes u))⟩

/-- The content of a string is taken again up to its closing quote, whatever follows that.
-/
theorem readContent?_local {x : Option Bytes} (h : readContent? s = some (x, r)) :
    ∃ b, s = b ++ r ∧ ∀ u, readContent? (b ++ u) = some (x, u) := by
  fun_induction readContent? s generalizing x with
  | case1 => cases h
  | case2 s t hpiece =>
    cases h
    refine ⟨[byte '"'], eq_of_nextPiece?_close hpiece, fun u => ?_⟩
    have hclose : nextPiece? (byte '"' :: u) = some (.close, u) := rfl
    rw [List.singleton_append, readContent?, hclose]
  | case3 s content t hpiece ih =>
    rcases Option.map_eq_some_iff.1 h with ⟨⟨y, t'⟩, hrest, heq⟩
    cases heq
    rcases ih hrest with ⟨b, rfl, htakes⟩
    rcases nextPiece?_before_content hpiece htakes with ⟨c, rfl, hagain⟩
    refine ⟨c ++ b, (List.append_assoc c b _).symm, fun u => ?_⟩
    rw [List.append_assoc, readContent?, hagain u]
    simp only [htakes u, Option.map_some]
  | case4 s t hpiece ih =>
    rcases Option.map_eq_some_iff.1 h with ⟨⟨y, t'⟩, hrest, heq⟩
    cases heq
    rcases ih hrest with ⟨b, rfl, htakes⟩
    rcases nextPiece?_before_content hpiece htakes with ⟨c, rfl, hagain⟩
    refine ⟨c ++ b, (List.append_assoc c b _).symm, fun u => ?_⟩
    rw [List.append_assoc, readContent?, hagain u]
    simp only [htakes u, Option.map_some]

/-- A string ends with its own quote. -/
theorem isLocal_readString? : IsLocal readString? := by
  have hcontent : IsLocal readContent? := by
    intro s x r h
    rcases readContent?_local h with ⟨b, hs, htakes⟩
    exact ⟨b, hs, fun u _ => htakes u⟩
  exact hcontent.map fun x => x.bind Utf8.decode?

end

/-! ## Tokens -/

namespace Token

/-- The byte of a bracket, a comma or a colon. -/
def mark? : Token → Option UInt8
  | opening b => some (byte b.openingChar)
  | closing b => some (byte b.closingChar)
  | comma => some (byte ',')
  | colon => some (byte ':')
  | scalar _ => none

end Token

section

variable {s r : Bytes} {t : Token} {m : UInt8}

/-- A word ends with its own last letter. -/
theorem isLocal_readWord? (word : List Char) (x : Scalar) : IsLocal (readWord? word x) := by
  intro s t r h
  unfold readWord? at h
  split at h
  · rename_i hword
    cases h
    rcases List.isPrefixOf_iff_prefix.1 hword with ⟨u, rfl⟩
    refine ⟨word.map byte, ?_, fun u _ => ?_⟩
    · rw [List.drop_left' (List.length_map byte)]
    · rw [readWord?, if_pos (List.isPrefixOf_iff_prefix.2 (List.prefix_append _ _)),
        List.drop_left' (List.length_map byte)]
  · cases h

/-- A number ends where something follows that is no part of one. -/
theorem isLocal_numberAt (b : UInt8) : IsLocal fun s => (readNumber? (b :: s)).map fun x =>
    (Token.scalar (.number (x.1.map fun b => Char.ofNat b.toNat)), x.2) := by
  intro s t r h
  rcases Option.map_eq_some_iff.1 h with ⟨⟨d, t'⟩, hnumber, heq⟩
  cases heq
  rcases readNumber?_local hnumber with ⟨hs, hne, htakes⟩
  rcases List.exists_cons_of_ne_nil hne with ⟨c, d', rfl⟩
  cases hs
  refine ⟨d', rfl, fun u hu => ?_⟩
  have htaken := htakes u hu
  rw [List.cons_append] at htaken
  show (readNumber? (b :: (d' ++ u))).map _ = _
  rw [htaken]
  rfl

/-- A token is told by its first byte, one reader for each. -/
theorem isLocal_tokenAt? (b : UInt8) : IsLocal (tokenAt? b) := by
  unfold tokenAt?
  iterate 6 refine (isLocal_some _).ite ?_
  refine (isLocal_readString?.map fun x => Token.scalar (.text x)).ite ?_
  iterate 3 refine (isLocal_readWord? _ _).ite ?_
  exact isLocal_numberAt b

/-- A bracket, a comma or a colon is read from its own byte. -/
theorem eq_of_tokenAt?_mark {c : UInt8} (h : tokenAt? c s = some (t, r)) (hm : t.mark? = some m) :
    c = m ∧ s = r := by
  have hscalar {x : Scalar} (ht : t = .scalar x) : False := by
    rw [ht] at hm
    cases hm
  have hword (word : List Char) (x : Scalar) : readWord? word x s ≠ some (t, r) := by
    unfold readWord?
    split
    · intro heq
      cases heq
      exact hscalar rfl
    · simp
  unfold tokenAt? at h
  iterate 6
    rcases ite_eq_iff.1 h with ⟨hc, htoken⟩ | ⟨-, h⟩
    · cases htoken
      cases hm
      exact ⟨hc, rfl⟩
  rcases ite_eq_iff.1 h with ⟨-, hstring⟩ | ⟨-, h⟩
  · rcases Option.map_eq_some_iff.1 hstring with ⟨x, -, heq⟩
    cases heq
    exact (hscalar rfl).elim
  iterate 3
    rcases ite_eq_iff.1 h with ⟨-, hread⟩ | ⟨-, h⟩
    · exact absurd hread (hword _ _)
  rcases Option.map_eq_some_iff.1 h with ⟨x, -, heq⟩
  cases heq
  exact (hscalar rfl).elim

/-- A mark is a token, whatever follows. -/
theorem tokenAt?_mark (hm : t.mark? = some m) (s : Bytes) : tokenAt? m s = some (t, s) := by
  cases t with
  | opening b => cases b <;> cases hm <;> rfl
  | closing b => cases b <;> cases hm <;> rfl
  | comma =>
    cases hm
    rfl
  | colon =>
    cases hm
    rfl
  | scalar x => cases hm

/-- The byte of a mark is no blank and goes on with no number. -/
theorem plain_of_mark? (hm : t.mark? = some m) :
    isBlankByte m = false ∧ isNumberByte m = false := by
  cases t with
  | opening b => cases b <;> cases hm <;> exact ⟨rfl, rfl⟩
  | closing b => cases b <;> cases hm <;> exact ⟨rfl, rfl⟩
  | comma =>
    cases hm
    exact ⟨rfl, rfl⟩
  | colon =>
    cases hm
    exact ⟨rfl, rfl⟩
  | scalar x => cases hm

/-- Blanks do not go on with a number. -/
theorem ends_blanks {blanks u : Bytes} (hblanks : blanks.all isBlankByte = true) (h : Ends u) :
    Ends (blanks ++ u) := by
  cases blanks with
  | nil => exact h
  | cons c blanks =>
    have hc : isBlankByte c = true := List.all_eq_true.1 hblanks c List.mem_cons_self
    refine ends_cons ?_ _
    simp only [isBlankByte, Bool.or_eq_true, decide_eq_true_eq] at hc
    rcases hc with ((rfl | rfl) | rfl) | rfl <;> rfl

/-- A mark ends what stands before it, also behind blanks. -/
theorem ends_mark {blanks : Bytes} (hblanks : blanks.all isBlankByte = true)
    (hm : t.mark? = some m) (u : Bytes) : Ends (blanks ++ m :: u) :=
  ends_blanks hblanks (ends_cons (plain_of_mark? hm).2 u)

/-- Blanks in front are skipped. -/
theorem SkipsBlanks.append {α : Type} {read : Bytes → Option (α × Bytes)} (h : SkipsBlanks read)
    {blanks : Bytes} (hblanks : blanks.all isBlankByte = true) (s : Bytes) :
    read (blanks ++ s) = read s := by
  induction blanks with
  | nil => rfl
  | cons c blanks ih =>
    rw [List.all_cons, Bool.and_eq_true] at hblanks
    rw [List.cons_append, h c _ hblanks.1, ih hblanks.2]

/-- A byte that is not blank starts the token. -/
theorem token?_cons {c : UInt8} (hc : isBlankByte c = false) (s : Bytes) :
    token? (c :: s) = tokenAt? c s := by
  rw [token?, List.dropWhile_cons, hc]
  rfl

/-- A token starts behind the blanks. -/
theorem exists_of_token? (h : token? s = some (t, r)) :
    ∃ blanks c s', blanks.all isBlankByte = true ∧ isBlankByte c = false ∧
      s = blanks ++ c :: s' ∧ tokenAt? c s' = some (t, r) := by
  unfold token? at h
  split at h
  · cases h
  · rename_i c s' hs
    refine ⟨s.takeWhile isBlankByte, c, s', List.all_takeWhile, ?_, ?_, h⟩
    · have hhead := List.head?_dropWhile_not isBlankByte s
      rw [hs] at hhead
      exact Bool.not_eq_true _ ▸ by simpa using hhead
    · rw [← hs, List.takeWhile_append_dropWhile]

/-- A bracket, a comma or a colon is its byte with blanks before it. -/
theorem token?_eq_some_iff (hm : t.mark? = some m) : token? s = some (t, r) ↔
    ∃ blanks, blanks.all isBlankByte = true ∧ s = blanks ++ m :: r := by
  constructor
  · intro h
    rcases exists_of_token? h with ⟨blanks, c, s', hblanks, -, hs, htoken⟩
    rcases eq_of_tokenAt?_mark htoken hm with ⟨rfl, rfl⟩
    exact ⟨blanks, hblanks, hs⟩
  · rintro ⟨blanks, hblanks, rfl⟩
    rw [skipsBlanks_token?.append hblanks, token?_cons (plain_of_mark? hm).1,
      tokenAt?_mark hm]

/-- The next token, behind any blanks. -/
theorem isLocal_token? : IsLocal token? := by
  intro s t r h
  rcases exists_of_token? h with ⟨blanks, c, s', hblanks, hc, rfl, htoken⟩
  rcases isLocal_tokenAt? c s' t r htoken with ⟨b, rfl, htakes⟩
  refine ⟨blanks ++ c :: b, ?_, fun u hu => ?_⟩
  · rw [List.append_assoc, List.cons_append]
  · rw [List.append_assoc, List.cons_append, skipsBlanks_token?.append hblanks, token?_cons hc,
      htakes u hu]

/-- A bracket, a comma or a colon is taken whatever follows it. -/
theorem token?_local (h : token? s = some (t, r)) :
    ∃ b, s = b ++ r ∧ b ≠ [] ∧ ∀ u, (t.mark? = none → Ends u) → token? (b ++ u) = some (t, u) := by
  cases hm : t.mark? with
  | some m =>
    rcases (token?_eq_some_iff hm).1 h with ⟨blanks, hblanks, rfl⟩
    refine ⟨blanks ++ [m], by simp, by simp, fun u _ => ?_⟩
    rw [List.append_assoc]
    exact (token?_eq_some_iff hm).2 ⟨blanks, hblanks, rfl⟩
  | none =>
    rcases isLocal_token? s t r h with ⟨b, rfl, htakes⟩
    refine ⟨b, rfl, ?_, fun u hu => htakes u (hu rfl)⟩
    rintro rfl
    exact Nat.lt_irrefl _ (length_lt_of_token? h)

end

end MetricRelay.Json
