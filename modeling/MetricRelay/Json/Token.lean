import MetricRelay.Text.Hex

/-!
# Tokens of a JSON text

A JSON text is read token by token from its bytes: brackets, commas, colons and scalars, with
blanks between them.  A string token knows its text only if that text is one: a string may hold
bytes that are no text and escapes of lone surrogates, which matter only to a reader who wants
the string.

Main definitions:

- `Scalar` and `Token`.
- `nextPiece?`: one character or escape of a string.
- `readString?`, `readNumber?`: the two scalars with an inner structure.
- `token?`: the next token and the bytes after it.

Main results:

- `length_lt_of_token?`: a token uses up at least one byte.
-/

namespace MetricRelay.Json

open Utf8 (Bytes)

/-- A value without parts.  A string whose content is no text has none. -/
inductive Scalar where
  | null
  | boolean (b : Bool)
  | number (literal : List Char)
  | text (content : Option String)
  deriving DecidableEq

/-- The two kinds of bracket. -/
inductive Bracket where
  | list
  | object
  deriving DecidableEq

/-- A token. -/
inductive Token where
  | opening (b : Bracket)
  | closing (b : Bracket)
  | comma
  | colon
  | scalar (x : Scalar)
  deriving DecidableEq

/-- The byte of an ASCII character. -/
def byte (c : Char) : UInt8 := c.toNat.toUInt8

/-- The blanks between tokens. -/
def isBlankByte (b : UInt8) : Bool :=
  b = byte ' ' || b = byte '\n' || b = byte '\t' || b = byte '\r'

/-- A decimal digit. -/
def isDigitByte (b : UInt8) : Bool :=
  0x30 ≤ b.toNat && b.toNat ≤ 0x39

/-! ## Strings -/

/-- A part of a string: its end, some bytes of its content, or half of a surrogate pair. -/
inductive Piece where
  | close
  | bytes (b : Bytes)
  | lone
  deriving DecidableEq

/-- Four digits in base sixteen. -/
def readHex4? : Bytes → Option (Nat × Bytes)
  | a :: b :: c :: d :: r => do
    let a ← Hex.digitValue? (Char.ofNat a.toNat)
    let b ← Hex.digitValue? (Char.ofNat b.toNat)
    let c ← Hex.digitValue? (Char.ofNat c.toNat)
    let d ← Hex.digitValue? (Char.ofNat d.toNat)
    return (((a * 16 + b) * 16 + c) * 16 + d, r)
  | _ => none

/-- The escape of a second half of a surrogate pair, at the start of some bytes. -/
def readLowSurrogate? : Bytes → Option (Nat × Bytes)
  | a :: b :: r =>
    if a = byte '\\' ∧ b = byte 'u' then
      (readHex4? r).filter fun n => 0xdc00 ≤ n.1 && n.1 ≤ 0xdfff
    else none
  | _ => none

/-- The character that two surrogates stand for. -/
def ofSurrogates (high low : Nat) : Char :=
  Char.ofNat (0x10000 + (high - 0xd800) * 0x400 + (low - 0xdc00))

/-- What follows the letter of an escape by number. -/
def readCodeEscape? (s : Bytes) : Option (Piece × Bytes) :=
  match readHex4? s with
  | none => none
  | some (n, r) =>
    if 0xd800 ≤ n ∧ n ≤ 0xdbff then
      match readLowSurrogate? r with
      | some (m, r) =>
        some (.bytes (Utf8.encodeChar (ofSurrogates n m)), r)
      | none => some (.lone, r)
    else if 0xdc00 ≤ n ∧ n ≤ 0xdfff then some (.lone, r)
    else some (.bytes (Utf8.encodeChar (Char.ofNat n)), r)

/-- The byte that a one-letter escape stands for. -/
def letterEscape? (b : UInt8) : Option UInt8 :=
  if b = byte '"' ∨ b = byte '\\' ∨ b = byte '/' then some b
  else if b = byte 'b' then some 0x08
  else if b = byte 'f' then some 0x0c
  else if b = byte 'n' then some 0x0a
  else if b = byte 'r' then some 0x0d
  else if b = byte 't' then some 0x09
  else none

/-- What follows the backslash of an escape. -/
def readEscape? : Bytes → Option (Piece × Bytes)
  | [] => none
  | b :: r =>
    if b = byte 'u' then readCodeEscape? r
    else (letterEscape? b).map fun v => (.bytes [v], r)

/-- The next part of a string; control characters must be escaped. -/
def nextPiece? : Bytes → Option (Piece × Bytes)
  | [] => none
  | b :: r =>
    if b = byte '"' then some (.close, r)
    else if b = byte '\\' then readEscape? r
    else if b.toNat < 0x20 then none
    else some (.bytes [b], r)

/-- Four hexadecimal digits are taken from a text. -/
theorem length_lt_of_readHex4? {s r : Bytes} {n : Nat} (h : readHex4? s = some (n, r)) :
    r.length < s.length := by
  unfold readHex4? at h
  split at h
  · simp only [Option.bind_eq_bind, Option.pure_def, Option.bind_eq_some_iff, Option.some.injEq,
      Prod.mk.injEq] at h
    grind
  · cases h

/-- The second half of a pair takes something from a text. -/
theorem length_lt_of_readLowSurrogate? {s r : Bytes} {n : Nat}
    (h : readLowSurrogate? s = some (n, r)) : r.length < s.length := by
  unfold readLowSurrogate? at h
  split at h
  · split at h
    · obtain ⟨h, -⟩ := Option.filter_eq_some_iff.1 h
      have := length_lt_of_readHex4? h
      simp only [List.length_cons]
      omega
    · cases h
  · cases h

/-- An escape by a number takes something from a text. -/
theorem length_lt_of_readCodeEscape? {s r : Bytes} {p : Piece}
    (h : readCodeEscape? s = some (p, r)) : r.length < s.length := by
  unfold readCodeEscape? at h
  split at h
  · cases h
  · rename_i n t hn
    have ht := length_lt_of_readHex4? hn
    split at h
    · split at h
      · rename_i m u hu
        have := length_lt_of_readLowSurrogate? hu
        grind
      · grind
    · split at h <;> grind

/-- A part of a string uses up at least one byte. -/
theorem length_lt_of_nextPiece? {s r : Bytes} {p : Piece} (h : nextPiece? s = some (p, r)) :
    r.length < s.length := by
  unfold nextPiece? at h
  split at h
  · cases h
  · split at h
    · grind
    · split at h
      · unfold readEscape? at h
        split at h
        · cases h
        · split at h
          · have := length_lt_of_readCodeEscape? h
            simp only [List.length_cons]
            omega
          · grind [Option.map_eq_some_iff]
      · split at h <;> grind

/-- The content of a string up to its closing quote, which is left out; a lone surrogate leaves
the string without content. -/
def readContent? (s : Bytes) : Option (Option Bytes × Bytes) :=
  match _h : nextPiece? s with
  | none => none
  | some (.close, r) => some (some [], r)
  | some (.bytes b, r) => (readContent? r).map fun x => (x.1.map (b ++ ·), x.2)
  | some (.lone, r) => (readContent? r).map fun x => (none, x.2)
termination_by s.length
decreasing_by all_goals exact length_lt_of_nextPiece? _h

/-- A string after its opening quote. -/
def readString? (s : Bytes) : Option (Option String × Bytes) :=
  (readContent? s).map fun x => (x.1.bind Utf8.decode?, x.2)

/-! ## Numbers -/

/-- A non-empty row of digits. -/
def readDigits? (s : Bytes) : Option (Bytes × Bytes) :=
  if (s.takeWhile isDigitByte).isEmpty then none
  else some (s.takeWhile isDigitByte, s.dropWhile isDigitByte)

/-- The digits before the point: a single zero, or digits that do not start with one. -/
def readWhole? (s : Bytes) : Option (Bytes × Bytes) :=
  (readDigits? s).filter fun x => x.1.head? != some (byte '0') || x.1.length == 1

/-- A point with digits after it, or nothing. -/
def readFraction? : Bytes → Option (Bytes × Bytes)
  | [] => some ([], [])
  | b :: r =>
    if b = byte '.' then (readDigits? r).map fun x => (b :: x.1, x.2)
    else some ([], b :: r)

/-- A sign, or nothing. -/
def readSign : Bytes → Bytes × Bytes
  | [] => ([], [])
  | b :: r => if b = byte '+' ∨ b = byte '-' then ([b], r) else ([], b :: r)

/-- An exponent, or nothing. -/
def readExponentPart? : Bytes → Option (Bytes × Bytes)
  | [] => some ([], [])
  | b :: r =>
    if b = byte 'e' ∨ b = byte 'E' then
      let sign := readSign r
      (readDigits? sign.2).map fun x => (b :: (sign.1 ++ x.1), x.2)
    else some ([], b :: r)

/-- A number without sign. -/
def readMagnitude? (s : Bytes) : Option (Bytes × Bytes) := do
  let (whole, r) ← readWhole? s
  let (fraction, r) ← readFraction? r
  let (exponent, r) ← readExponentPart? r
  return (whole ++ fraction ++ exponent, r)

/-- A number. -/
def readNumber? : Bytes → Option (Bytes × Bytes)
  | [] => none
  | b :: r =>
    if b = byte '-' then (readMagnitude? r).map fun x => (b :: x.1, x.2)
    else readMagnitude? (b :: r)

/-! ## Tokens -/

/-- A word, and what follows it. -/
def readWord? (word : List Char) (x : Scalar) (s : Bytes) : Option (Token × Bytes) :=
  if (word.map byte).isPrefixOf s then some (.scalar x, s.drop word.length) else none

/-- The token that starts with a byte. -/
def tokenAt? (b : UInt8) (r : Bytes) : Option (Token × Bytes) :=
  if b = byte '[' then some (.opening .list, r)
  else if b = byte '\x7b' then some (.opening .object, r)
  else if b = byte ']' then some (.closing .list, r)
  else if b = byte '\x7d' then some (.closing .object, r)
  else if b = byte ',' then some (.comma, r)
  else if b = byte ':' then some (.colon, r)
  else if b = byte '"' then (readString? r).map fun x => (.scalar (.text x.1), x.2)
  else if b = byte 'n' then readWord? ['u', 'l', 'l'] .null r
  else if b = byte 't' then readWord? ['r', 'u', 'e'] (.boolean true) r
  else if b = byte 'f' then readWord? ['a', 'l', 's', 'e'] (.boolean false) r
  else (readNumber? (b :: r)).map fun x =>
    (.scalar (.number (x.1.map fun b => Char.ofNat b.toNat)), x.2)

/-- The next token and the bytes after it. -/
def token? (s : Bytes) : Option (Token × Bytes) :=
  match s.dropWhile isBlankByte with
  | [] => none
  | b :: r => tokenAt? b r

/-- What is left behind the content of a string is no longer than what it was read from. -/
theorem length_le_of_readContent? {s r : Bytes} {x : Option Bytes}
    (h : readContent? s = some (x, r)) : r.length ≤ s.length := by
  fun_induction readContent? s generalizing x with
  | case1 => cases h
  | case2 _ _ hp => have := length_lt_of_nextPiece? hp; grind
  | case3 _ _ _ hp ih =>
    obtain ⟨⟨y, u⟩, hy, he⟩ := Option.map_eq_some_iff.1 h
    simp only [Prod.mk.injEq] at he
    have := length_lt_of_nextPiece? hp
    have := ih (he.2 ▸ hy)
    omega
  | case4 _ _ hp ih =>
    obtain ⟨⟨y, u⟩, hy, he⟩ := Option.map_eq_some_iff.1 h
    simp only [Prod.mk.injEq] at he
    have := length_lt_of_nextPiece? hp
    have := ih (he.2 ▸ hy)
    omega

/-- What is left behind a string is no longer than what was read. -/
theorem length_le_of_readString? {s r : Bytes} {x : Option String}
    (h : readString? s = some (x, r)) : r.length ≤ s.length := by
  obtain ⟨⟨y, u⟩, hy, he⟩ := Option.map_eq_some_iff.1 h
  simp only [Prod.mk.injEq] at he
  exact length_le_of_readContent? (he.2 ▸ hy)

/-- Digits are at least one. -/
theorem length_lt_of_readDigits? {s d r : Bytes} (h : readDigits? s = some (d, r)) :
    r.length < s.length := by
  unfold readDigits? at h
  split at h
  · cases h
  · rename_i hne
    have hlen := congrArg List.length (List.takeWhile_append_dropWhile (p := isDigitByte) (l := s))
    rw [List.length_append] at hlen
    have : (s.takeWhile isDigitByte).length ≠ 0 := by
      simpa [List.isEmpty_iff] using hne
    grind

/-- A number without a sign takes something from a text. -/
theorem length_lt_of_readMagnitude? {s d r : Bytes} (h : readMagnitude? s = some (d, r)) :
    r.length < s.length := by
  unfold readMagnitude? at h
  simp only [Option.bind_eq_bind, Option.pure_def, Option.bind_eq_some_iff, Option.some.injEq,
    Prod.mk.injEq, Prod.exists] at h
  obtain ⟨whole, t, hw, fraction, u, hf, exponent, v, he, -, rfl⟩ := h
  obtain ⟨hw, -⟩ := Option.filter_eq_some_iff.1 hw
  have h1 := length_lt_of_readDigits? hw
  have h2 : u.length ≤ t.length := by
    unfold readFraction? at hf
    split at hf
    · grind
    · split at hf
      · obtain ⟨x, hx, he⟩ := Option.map_eq_some_iff.1 hf
        have := length_lt_of_readDigits? hx
        grind
      · grind
  have h3 : v.length ≤ u.length := by
    unfold readExponentPart? at he
    split at he
    · grind
    · split at he
      · obtain ⟨x, hx, hv⟩ := Option.map_eq_some_iff.1 he
        have := length_lt_of_readDigits? hx
        unfold readSign at *
        grind
      · grind
  omega

/-- A number takes at least one byte, with a sign or without one. -/
theorem length_lt_of_readNumber? {s d r : Bytes} (h : readNumber? s = some (d, r)) :
    r.length < s.length := by
  unfold readNumber? at h
  split at h
  · cases h
  · split at h
    · obtain ⟨⟨y, u⟩, hy, he⟩ := Option.map_eq_some_iff.1 h
      simp only [Prod.mk.injEq] at he
      have := length_lt_of_readMagnitude? (he.2 ▸ hy)
      simp only [List.length_cons]
      omega
    · exact length_lt_of_readMagnitude? h

/-- Whichever branch is taken, no bytes are added. -/
theorem length_le_of_ite {c : Prop} [Decidable c] {n : Nat} {x y : Option (Token × Bytes)}
    (hx : ∀ z ∈ x, z.2.length ≤ n) (hy : ∀ z ∈ y, z.2.length ≤ n) :
    ∀ z ∈ if c then x else y, z.2.length ≤ n := by
  by_cases h : c
  · rw [if_pos h]
    exact hx
  · rw [if_neg h]
    exact hy

/-- What is left behind a word is no longer than what it was read from. -/
theorem length_le_of_mem_readWord? (word : List Char) (x : Scalar) (s : Bytes) :
    ∀ z ∈ readWord? word x s, z.2.length ≤ s.length := by
  apply length_le_of_ite
  · intro z hz
    cases hz
    rw [List.length_drop]
    exact Nat.sub_le _ _
  · intro z hz
    cases hz

/-- Whatever the token is, what is left behind it is no longer than what follows its first byte. -/
theorem length_le_of_tokenAt? {b : UInt8} {u r : Bytes} {t : Token}
    (h : tokenAt? b u = some (t, r)) : r.length ≤ u.length := by
  have hbyte (t : Token) : ∀ z ∈ some (t, u), z.2.length ≤ u.length := by
    intro z hz
    cases hz
    exact Nat.le_refl _
  have hstring : ∀ z ∈ (readString? u).map fun x => (Token.scalar (.text x.1), x.2),
      z.2.length ≤ u.length := by
    intro z hz
    obtain ⟨x, hx, rfl⟩ := Option.map_eq_some_iff.1 hz
    exact length_le_of_readString? hx
  have hnumber : ∀ z ∈ (readNumber? (b :: u)).map fun x =>
      (Token.scalar (.number (x.1.map fun b => Char.ofNat b.toNat)), x.2),
      z.2.length ≤ u.length := by
    intro z hz
    obtain ⟨x, hx, rfl⟩ := Option.map_eq_some_iff.1 hz
    exact Nat.le_of_lt_succ (length_lt_of_readNumber? hx)
  have hall : ∀ z ∈ tokenAt? b u, z.2.length ≤ u.length := by
    unfold tokenAt?
    iterate 6 apply length_le_of_ite (hbyte _)
    apply length_le_of_ite hstring
    iterate 3 apply length_le_of_ite (length_le_of_mem_readWord? _ _ u)
    exact hnumber
  exact hall _ h

/-- A token uses up at least one byte. -/
theorem length_lt_of_token? {s r : Bytes} {t : Token} (h : token? s = some (t, r)) :
    r.length < s.length := by
  unfold token? at h
  split at h
  · cases h
  · rename_i b u hs
    have hle : (s.dropWhile isBlankByte).length ≤ s.length := by
      have := congrArg List.length
        (List.takeWhile_append_dropWhile (p := isBlankByte) (l := s))
      rw [List.length_append] at this
      omega
    rw [hs, List.length_cons] at hle
    have := length_le_of_tokenAt? h
    omega

end MetricRelay.Json
