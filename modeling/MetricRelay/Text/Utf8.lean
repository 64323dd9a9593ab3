/-!
# Bytes of a text

A text travels as bytes in the UTF-8 form.  Reading is strict: a byte sequence is refused when it
is cut off, longer than needed, or stands for no Unicode scalar value.

Main definitions:

- `encode`: the bytes of a text.
- `decode?`: the text of some bytes, if they are the form of one.
-/

namespace MetricRelay.Utf8

/-- Bytes as a list, the form in which bodies and files are read and written. -/
abbrev Bytes := List UInt8

/-- The bytes of one character. -/
def encodeChar (c : Char) : Bytes :=
  let n := c.toNat
  if n < 0x80 then
    [n.toUInt8]
  else if n < 0x800 then
    [(0xc0 + n / 64).toUInt8, (0x80 + n % 64).toUInt8]
  else if n < 0x10000 then
    [(0xe0 + n / 4096).toUInt8, (0x80 + n / 64 % 64).toUInt8, (0x80 + n % 64).toUInt8]
  else
    [(0xf0 + n / 262144).toUInt8, (0x80 + n / 4096 % 64).toUInt8, (0x80 + n / 64 % 64).toUInt8,
      (0x80 + n % 64).toUInt8]

/-- The bytes of a list of characters. -/
def encodeChars (s : List Char) : Bytes :=
  s.flatMap encodeChar

/-- The bytes of a text. -/
def encode (s : String) : Bytes :=
  encodeChars s.toList

/-- The six bits that a continuation byte carries. -/
def continuation? (b : UInt8) : Option Nat :=
  if 0x80 ≤ b.toNat ∧ b.toNat < 0xc0 then some (b.toNat - 0x80) else none

/-- The character with a given code point, if that is a scalar value of at least `least`. -/
def scalar? (least n : Nat) : Option Char :=
  if h : n.isValidChar then
    if least ≤ n then some (Char.ofNatAux n h) else none
  else none

/-- The first character of some bytes and the bytes after it. -/
def decodeChar? : Bytes → Option (Char × Bytes)
  | [] => none
  | a :: r =>
    if a.toNat < 0x80 then
      (scalar? 0 a.toNat).map (·, r)
    else if a.toNat < 0xc0 then
      none
    else if a.toNat < 0xe0 then
      match r with
      | b :: r => do
        let b ← continuation? b
        let c ← scalar? 0x80 ((a.toNat - 0xc0) * 64 + b)
        return (c, r)
      | _ => none
    else if a.toNat < 0xf0 then
      match r with
      | b :: c :: r => do
        let b ← continuation? b
        let c ← continuation? c
        let x ← scalar? 0x800 ((a.toNat - 0xe0) * 4096 + b * 64 + c)
        return (x, r)
      | _ => none
    else
      match r with
      | b :: c :: d :: r => do
        let b ← continuation? b
        let c ← continuation? c
        let d ← continuation? d
        let x ← scalar? 0x10000 ((a.toNat - 0xf0) * 262144 + b * 4096 + c * 64 + d)
        return (x, r)
      | _ => none

/-- Reading a character uses up at least one byte. -/
theorem length_lt_of_decodeChar? {s r : Bytes} {c : Char} (h : decodeChar? s = some (c, r)) :
    r.length < s.length := by
  unfold decodeChar? at h
  split at h
  · cases h
  · simp only [Option.bind_eq_bind, Option.pure_def] at h
    repeat' split at h
    all_goals
      simp only [Option.map_eq_some_iff, Option.bind_eq_some_iff, Option.some.injEq,
        Prod.mk.injEq, reduceCtorEq] at h
    all_goals grind

/-- The characters of some bytes, or nothing when they are not the form of a text. -/
def decodeChars? (s : Bytes) : Option (List Char) :=
  match _h : decodeChar? s with
  | none => if s.isEmpty then some [] else none
  | some (c, r) => (decodeChars? r).map (c :: ·)
termination_by s.length
decreasing_by exact length_lt_of_decodeChar? _h

/-- The text of some bytes. -/
def decode? (s : Bytes) : Option String :=
  (decodeChars? s).map String.ofList

end MetricRelay.Utf8
