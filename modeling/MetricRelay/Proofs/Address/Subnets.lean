import Mathlib.Data.List.TakeWhile
import MetricRelay.Address.Subnet
import MetricRelay.Proofs.Number.Literal

/-!
# Subnets by their bits

A subnet is made and matched with masks.  What it matches is told here without them, by
the bits of the addresses: those whose first bits are the first bits of the address that
the subnet was made from.

Main definitions:

- `Agree`: two addresses with the same first bits.
- `Ip.mapped`: an address of the older family inside one of the newer family.
- `Ip.Covers`: the addresses that start as a given one does.
- `Subnet.Writes`: the texts of an address and a number of bits.

Main results:

- `Block.contains_iff`: a block has the addresses that agree with its network.
- `Block.eq_of_contains`: blocks with the same addresses are the same.
- `Subnet.matches_exactly`: what becomes of the text of a subnet.
-/

namespace MetricRelay

/-! ## First bits -/

section

variable {w : Nat}

/-- Two addresses have the same first `n` bits. -/
def Agree (n : Nat) (a b : BitVec w) : Prop := ∀ i < n, a.getMsbD i = b.getMsbD i

/-- Which of two addresses is named first does not matter. -/
theorem Agree.symm {n : Nat} {a b : BitVec w} (h : Agree n a b) : Agree n b a :=
  fun i hi => (h i hi).symm

/-- Addresses that agree with one and the same agree with each other. -/
theorem Agree.trans {n : Nat} {a b c : BitVec w} (h : Agree n a b) (h' : Agree n b c) :
    Agree n a c :=
  fun i hi => (h i hi).trans (h' i hi)

instance (n : Nat) (a b : BitVec w) : Decidable (Agree n a b) :=
  inferInstanceAs (Decidable (∀ i < n, a.getMsbD i = b.getMsbD i))

/-- A mask has its first bits set and no others. -/
theorem getMsbD_firstBits {length : Nat} (h : length ≤ w) (i : Nat) :
    (firstBits w length).getMsbD i = decide (i < length) := by
  rw [firstBits, BitVec.getMsbD_shiftLeft, BitVec.getMsbD_allOnes, decide_eq_decide]
  omega

/-- A shift to the left, by less than the width. -/
def shiftWithin? (a : BitVec w) (distance : Nat) : Option (BitVec w) :=
  if distance < w then some (a <<< distance) else none

/-- A mask of the first bits with no subtraction below zero and no shift by the width or
more: for no bits at all nothing is shifted. -/
def firstBits? (w length : Nat) : Option (BitVec w) :=
  if length = 0 then some 0
  else if length ≤ w then shiftWithin? (BitVec.allOnes w) (w - length)
  else none

/-- There is a mask of every length up to the width of an address. -/
theorem firstBits?_eq_some {length : Nat} (h : length ≤ w) :
    firstBits? w length = some (firstBits w length) := by
  unfold firstBits?
  by_cases hzero : length = 0
  · rw [if_pos hzero, hzero]
    refine congrArg some (BitVec.eq_of_getMsbD_eq fun i _ => ?_)
    rw [getMsbD_firstBits (Nat.zero_le w)]
    simp
  · have hdistance : w - length < w := by omega
    rw [if_neg hzero, if_pos h, shiftWithin?, if_pos hdistance]
    rfl

end

/-! ## Blocks -/

namespace Block

variable {w : Nat} {b c : Block w}

/-- In the network of a block all bits behind its length are cleared. -/
theorem getMsbD_network (b : Block w) (i : Nat) :
    b.network.getMsbD i = (b.network.getMsbD i && decide (i < b.length)) := by
  conv_lhs => rw [← b.masked]
  rw [BitVec.getMsbD_and, getMsbD_firstBits b.length_le]

/-- The bits behind the first ones are clear. -/
theorem getMsbD_network_of_le (b : Block w) {i : Nat} (h : b.length ≤ i) :
    b.network.getMsbD i = false := by
  rw [getMsbD_network, decide_eq_false (Nat.not_lt.2 h), Bool.and_false]

/-- A block has the addresses that agree with its network. -/
theorem contains_iff (b : Block w) (a : BitVec w) :
    b.contains a = true ↔ Agree b.length b.network a := by
  rw [contains, beq_iff_eq]
  have hmask (i : Nat) :
      (a &&& firstBits w b.length).getMsbD i = (a.getMsbD i && decide (i < b.length)) := by
    rw [BitVec.getMsbD_and, getMsbD_firstBits b.length_le]
  constructor
  · intro heq i hi
    rw [← heq, hmask, decide_eq_true hi, Bool.and_true]
  · intro hagree
    refine BitVec.eq_of_getMsbD_eq fun i _ => ?_
    rw [hmask, getMsbD_network]
    by_cases hi : i < b.length
    · rw [hagree i hi]
    · rw [decide_eq_false hi, Bool.and_false, Bool.and_false]

/-- The network of a block is an address of the block. -/
theorem contains_network (b : Block w) : b.contains b.network = true :=
  (b.contains_iff _).2 fun _ _ => rfl

/-- The network of an address starts as the address does. -/
theorem agree_ofAddress (a : BitVec w) {length : Nat} (h : length ≤ w) :
    Agree length (ofAddress a length h).network a :=
  ((ofAddress a length h).contains_iff a).1 (beq_self_eq_true _)

/-- In a smaller block at least as many bits count. -/
theorem length_le_of_contains (h : ∀ a, b.contains a = true → c.contains a = true) :
    c.length ≤ b.length := by
  by_contra hlt
  rw [Nat.not_le] at hlt
  have hplace : b.length < w := Nat.lt_of_lt_of_le hlt c.length_le
  -- The address of the network with its first free bit turned over is one of the block too.
  let turned := b.network ^^^ BitVec.twoPow w (w - 1 - b.length)
  have hturned (i : Nat) : turned.getMsbD i = (b.network.getMsbD i ^^ decide (i = b.length)) := by
    have hdistance : w - 1 - b.length < w := by omega
    have hindex : w - (w - 1 - b.length) - 1 = b.length := by omega
    rw [BitVec.getMsbD_xor, BitVec.getMsbD_twoPow, decide_eq_true hdistance, Bool.true_and, hindex]
  have hin : b.contains turned = true := by
    refine (b.contains_iff _).2 fun i hi => ?_
    rw [hturned, decide_eq_false (Nat.ne_of_lt hi), Bool.xor_false]
  have hfirst := (c.contains_iff _).1 (h _ b.contains_network)
  have hsecond := (c.contains_iff _).1 (h _ hin)
  have hbit := hfirst.symm.trans hsecond b.length hlt
  rw [hturned, decide_eq_true rfl, Bool.xor_true] at hbit
  exact (Bool.not_eq_self _).1 hbit.symm

/-- Blocks with the same addresses are the same. -/
theorem eq_of_contains (h : ∀ a, b.contains a = c.contains a) : b = c := by
  have hlength : b.length = c.length :=
    Nat.le_antisymm (length_le_of_contains fun a ha => (h a).trans ha)
      (length_le_of_contains fun a ha => (h a).symm.trans ha)
  have hagree := (b.contains_iff _).1 ((h c.network).trans c.contains_network)
  have hnetwork : b.network = c.network := by
    refine BitVec.eq_of_getMsbD_eq fun i _ => ?_
    by_cases hi : i < b.length
    · exact hagree i hi
    · rw [b.getMsbD_network_of_le (Nat.not_lt.1 hi),
        c.getMsbD_network_of_le (hlength ▸ Nat.not_lt.1 hi)]
  rcases b with ⟨network, length, hle, hmasked⟩
  rcases c with ⟨network', length', hle', hmasked'⟩
  cases hlength
  cases hnetwork
  rfl

end Block

/-! ## Addresses -/

namespace Ip

/-- How many bits an address of the same family has. -/
def width : Ip → Nat
  | v4 _ => 32
  | v6 _ => 128

/-- An address of the older family behind eighty zeros and sixteen ones. -/
def mapped (a : BitVec 32) : BitVec 128 := 0#80 ++ BitVec.allOnes 16 ++ a

/-- The addresses that start as a given one does.  Inside the newer family those of the
older one count too. -/
def Covers (length : Nat) : Ip → Ip → Prop
  | v4 a, v4 x => Agree length a x
  | v4 a, v6 x => ∃ inner, x = mapped inner ∧ Agree length a inner
  | v6 a, v6 x => Agree length a x
  | v6 _, v4 _ => False

/-- Addresses with the same first bits stand for the same addresses. -/
theorem covers_congr {length : Nat} {a b : BitVec 32} (h : Agree length a b) (x : Ip) :
    Covers length (.v4 a) x ↔ Covers length (.v4 b) x := by
  have hagree (x : BitVec 32) : Agree length a x ↔ Agree length b x :=
    ⟨h.symm.trans, h.trans⟩
  cases x with
  | v4 x => exact hagree x
  | v6 x => simp only [Covers, hagree]

/-- A mapped address is the shorter one behind sixteen bits that are set. -/
theorem toNat_mapped (a : BitVec 32) : (mapped a).toNat = 0xffff * 2 ^ 32 + a.toNat := by
  have hprefix : (0#80 ++ BitVec.allOnes 16).toNat = 0xffff := by decide
  show (0#80 ++ BitVec.allOnes 16 ++ a).toNat = _
  rw [BitVec.toNat_append, hprefix, ← Nat.shiftLeft_add_eq_or_of_lt a.isLt, Nat.shiftLeft_eq]

/-- An address is taken for a shorter one exactly if it is that one, mapped. -/
theorem unmapped?_eq_some_iff {x : BitVec 128} {a : BitVec 32} :
    unmapped? x = some a ↔ x = mapped a := by
  have hfront : x >>> 32 = 0xffff#128 ↔ x.toNat / 2 ^ 32 = 0xffff := by
    rw [← BitVec.toNat_inj, BitVec.toNat_ushiftRight, Nat.shiftRight_eq_div_pow]
    rfl
  have hback : x.setWidth 32 = a ↔ x.toNat % 2 ^ 32 = a.toNat := by
    rw [← BitVec.toNat_inj, BitVec.toNat_setWidth]
  have hmapped : x = mapped a ↔ x.toNat = 0xffff * 2 ^ 32 + a.toNat := by
    rw [← BitVec.toNat_inj, toNat_mapped]
  have hlt := a.isLt
  rw [hmapped]
  unfold unmapped?
  split
  · rename_i h
    rw [Option.some.injEq, hback]
    have := hfront.1 h
    omega
  · rename_i h
    have hne := mt hfront.2 h
    simp only [reduceCtorEq, false_iff]
    omega

end Ip

/-! ## Texts of subnets -/

namespace Subnet

/-- A text is an address, a slash and a number of bits behind an optional plus sign, with
blanks around. -/
def Writes (raw : String) (ip : Ip) (length : Nat) : Prop :=
  ∃ address sign digits, Text.trim raw.toList = address ++ '/' :: (sign ++ digits) ∧
    '/' ∉ address ∧ Ip.parse? (String.ofList address) = some ip ∧ (sign = [] ∨ sign = ['+']) ∧
    digits ≠ [] ∧ digits.all isDigit = true ∧ digitsNat digits = length

/-- The subnet of an address, unless it has fewer bits than should count. -/
def compile (raw : String) (length : Nat) : Ip → Outcome Subnet
  | .v4 a => (block raw a length).map v4
  | .v6 a => (block raw a length).map v6

section

variable {raw : String} {ip : Ip} {length : Nat} {address bits : List Char}

/-- What stands before and behind the first slash is read by itself. -/
theorem parse_of_split (htrim : Text.trim raw.toList = address ++ '/' :: bits)
    (hslash : '/' ∉ address) :
    parse raw =
      match Ip.parse? (String.ofList address) with
      | none => .error (malformed raw "bad address")
      | some ip =>
        match readLength? bits with
        | none => .error (malformed raw "bad prefix length")
        | some length => compile raw length ip := by
  have haddress : address.all (fun c => decide (c ≠ '/')) = true :=
    List.all_eq_true.2 fun c hc => decide_eq_true fun heq => hslash (heq ▸ hc)
  have hrest : ∀ c ∈ ('/' :: bits).head?, decide (c ≠ '/') = false := by
    rintro c ⟨⟩
    rfl
  simp only [parse, htrim, dropWhile_append_of_head? haddress hrest,
    takeWhile_append_of_head? haddress hrest]
  cases Ip.parse? (String.ofList address) with
  | none => rfl
  | some ip =>
    cases readLength? bits with
    | none => rfl
    | some length => cases ip <;> rfl

/-- A length is read from its digits, with or without a plus, as long as it fits into a
byte. -/
theorem readLength?_sign {sign digits : List Char} (hsign : sign = [] ∨ sign = ['+'])
    (hne : digits ≠ []) (hdigits : digits.all isDigit = true) :
    readLength? (sign ++ digits) = (some (digitsNat digits)).filter (· < 256) := by
  have hread : readNat? digits = some (digitsNat digits) := readDigits?_of_all hdigits hne
  rcases hsign with rfl | rfl
  · rcases List.exists_cons_of_ne_nil hne with ⟨c, r, rfl⟩
    have hc : c ≠ '+' := by
      rintro rfl
      cases hdigits
    rw [List.nil_append, readLength?, hread]
    exact fun r' heq => absurd (List.cons.inj heq).1 hc
  · rw [List.singleton_append, readLength?, hread]

/-- What is read as a number of bits. -/
theorem exists_of_readLength? (h : readLength? bits = some length) :
    ∃ sign digits, bits = sign ++ digits ∧ (sign = [] ∨ sign = ['+']) ∧ digits ≠ [] ∧
      digits.all isDigit = true ∧ digitsNat digits = length := by
  have hdigits {digits : List Char} (h : (readNat? digits).filter (· < 256) = some length) :
      digits ≠ [] ∧ digits.all isDigit = true ∧ digitsNat digits = length := by
    rcases Option.filter_eq_some_iff.1 h with ⟨hread, -⟩
    unfold readNat? readDigits? at hread
    split at hread
    · cases hread
    · rename_i hok
      simp only [Bool.or_eq_true, List.isEmpty_iff, Bool.not_eq_true', not_or,
        Bool.not_eq_false] at hok
      exact ⟨hok.1, hok.2, Option.some.inj hread⟩
  unfold readLength? at h
  split at h
  · rename_i r
    exact ⟨['+'], r, rfl, .inr rfl, hdigits h⟩
  · exact ⟨[], bits, rfl, .inl rfl, hdigits h⟩

/-- A text with an address and a length is read as far as its length fits into a byte. -/
theorem Writes.parse_eq (h : Writes raw ip length) :
    parse raw =
      if length < 256 then compile raw length ip
      else .error (malformed raw "bad prefix length") := by
  rcases h with ⟨address, sign, digits, htrim, hslash, hip, hsign, hne, hdigits, rfl⟩
  simp only [parse_of_split htrim hslash, hip, readLength?_sign hsign hne hdigits,
    Option.filter_some]
  by_cases hsmall : digitsNat digits < 256
  · rw [if_pos (decide_eq_true hsmall), if_pos hsmall]
  · rw [if_neg (by simpa using hsmall), if_neg hsmall]

/-- A text that is accepted has an address and a number of bits. -/
theorem exists_writes {s : Subnet} (h : parse raw = .ok s) : ∃ ip length, Writes raw ip length := by
  have hmem : '/' ∈ Text.trim raw.toList := by
    by_contra hnone
    have hnil : (Text.trim raw.toList).dropWhile (fun c => decide (c ≠ '/')) = [] :=
      List.dropWhile_eq_nil_iff.2 fun c hc => decide_eq_true fun heq => hnone (heq ▸ hc)
    simp only [parse, hnil, reduceCtorEq] at h
  rcases List.eq_append_cons_of_mem hmem with ⟨address, bits, htrim, hslash⟩
  rw [parse_of_split htrim hslash] at h
  cases hip : Ip.parse? (String.ofList address) with
  | none => simp only [hip, reduceCtorEq] at h
  | some ip =>
    cases hlength : readLength? bits with
    | none => simp only [hip, hlength, reduceCtorEq] at h
    | some length =>
      rcases exists_of_readLength? hlength with ⟨sign, digits, rfl, hsign, hne, hdigits, rfl⟩
      exact ⟨ip, _, address, sign, digits, htrim, hslash, hip, hsign, hne, hdigits, rfl⟩

end

/-! ## What a subnet has -/

/-- How many bits count. -/
def length : Subnet → Nat
  | v4 b => b.length
  | v6 b => b.length

/-- A bit of the network, counted from the first one. -/
def networkBit (i : Nat) : Subnet → Bool
  | v4 b => b.network.getMsbD i
  | v6 b => b.network.getMsbD i

/-- A subnet has the addresses that start as a given one does, and keeps no other bits. -/
structure IsCompiled (s : Subnet) (ip : Ip) (length : Nat) : Prop where
  contains_iff : ∀ x, s.contains x = true ↔ ip.Covers length x
  length_eq : s.length = length
  clear : ∀ i, length ≤ i → s.networkBit i = false

section

variable {raw : String} {ip : Ip} {length : Nat}

/-- A block that was made from an address has the addresses that agree with it. -/
theorem contains_ofAddress {w : Nat} (a x : BitVec w) (h : length ≤ w) :
    (Block.ofAddress a length h).contains x = true ↔ Agree length a x := by
  have hnetwork := Block.agree_ofAddress a h
  rw [Block.contains_iff]
  exact ⟨hnetwork.symm.trans, hnetwork.trans⟩

/-- A block of short addresses is what a subnet of its length should be. -/
theorem isCompiled_v4 (a : BitVec 32) (h : length ≤ 32) :
    (v4 (Block.ofAddress a length h)).IsCompiled (.v4 a) length := by
  refine ⟨fun x => ?_, rfl, fun i hi => Block.getMsbD_network_of_le _ hi⟩
  cases x with
  | v4 x => exact contains_ofAddress a x h
  | v6 x =>
    simp only [contains, Ip.Covers]
    cases hinner : Ip.unmapped? x with
    | none =>
      simp only [Bool.false_eq_true, false_iff]
      rintro ⟨inner, heq, -⟩
      rw [Ip.unmapped?_eq_some_iff.2 heq] at hinner
      cases hinner
    | some inner =>
      simp only [contains_ofAddress]
      constructor
      · exact fun hagree => ⟨inner, Ip.unmapped?_eq_some_iff.1 hinner, hagree⟩
      · rintro ⟨inner', heq, hagree⟩
        rw [Ip.unmapped?_eq_some_iff.2 heq] at hinner
        cases hinner
        exact hagree

/-- A block of long addresses is compiled, unless it is one of mapped ones. -/
theorem isCompiled_v6 (a : BitVec 128) (h : length ≤ 128) :
    (v6 (Block.ofAddress a length h)).IsCompiled (.v6 a) length := by
  refine ⟨fun x => ?_, rfl, fun i hi => Block.getMsbD_network_of_le _ hi⟩
  cases x with
  | v4 x => simp only [contains, Ip.Covers, Bool.false_eq_true]
  | v6 x => exact contains_ofAddress a x h

theorem block_of_le {w : Nat} (raw : String) (a : BitVec w) (h : length ≤ w) :
    block raw a length = .ok (Block.ofAddress a length h) := dif_pos h

/-- A length beyond the width of an address makes no block. -/
theorem block_of_lt {w : Nat} (raw : String) (a : BitVec w) (h : w < length) :
    block raw a length = .error (malformed raw ("prefix length above " ++ natText w)) :=
  dif_neg (Nat.not_le.2 h)

/-- An address with enough bits is compiled to the subnet of those that start as it does. -/
theorem exists_compile (raw : String) (h : length ≤ ip.width) :
    ∃ s, compile raw length ip = .ok s ∧ s.IsCompiled ip length := by
  cases ip with
  | v4 a => exact ⟨_, congrArg (Except.map v4) (block_of_le raw a h), isCompiled_v4 a h⟩
  | v6 a => exact ⟨_, congrArg (Except.map v6) (block_of_le raw a h), isCompiled_v6 a h⟩

/-- A prefix that is too long makes no subnet, of either family. -/
theorem compile_of_lt (raw : String) (h : ip.width < length) :
    compile raw length ip = .error (malformed raw ("prefix length above " ++ natText ip.width)) := by
  cases ip with
  | v4 a => exact congrArg (Except.map v4) (block_of_lt raw a h)
  | v6 a => exact congrArg (Except.map v6) (block_of_lt raw a h)

/-- The width of an address fits into a byte. -/
theorem width_lt (ip : Ip) : ip.width < 256 := by
  cases ip with
  | v4 a => exact of_decide_eq_true rfl
  | v6 a => exact of_decide_eq_true rfl

/-- A text with an address and a length up to its width is read as the subnet that it
states. -/
theorem Writes.exists_parse (h : Writes raw ip length) (hle : length ≤ ip.width) :
    ∃ s, parse raw = .ok s ∧ s.IsCompiled ip length := by
  rw [h.parse_eq, if_pos (Nat.lt_of_le_of_lt hle (width_lt ip))]
  exact exists_compile raw hle

/-- More bits than an address has are refused. -/
theorem Writes.parse_of_lt (h : Writes raw ip length) (hlt : ip.width < length) :
    ∃ why, parse raw = .error (malformed raw why) := by
  rw [h.parse_eq]
  split
  · exact ⟨_, compile_of_lt raw hlt⟩
  · exact ⟨_, rfl⟩

/-- Subnets with the same addresses are the same. -/
theorem eq_of_contains {s t : Subnet} (h : ∀ x, s.contains x = t.contains x) : s = t := by
  cases s with
  | v4 b =>
    cases t with
    | v4 c => rw [Block.eq_of_contains fun a => h (.v4 a)]
    | v6 c =>
      have hnetwork := h (.v4 b.network)
      rw [contains, b.contains_network] at hnetwork
      cases hnetwork
  | v6 b =>
    cases t with
    | v4 c =>
      have hnetwork := h (.v4 c.network)
      rw [contains, contains, c.contains_network] at hnetwork
      cases hnetwork
    | v6 c => rw [Block.eq_of_contains fun a => h (.v6 a)]

/-- A text with an address and a number of bits is the subnet of the addresses that start
as this one does, with all other bits of the network clear, unless the address has fewer
bits: then it is refused.  Nothing else is accepted.  Two texts are the same subnet exactly
if they have the same addresses.  No mask needs a shift by the width or more. -/
theorem matches_exactly (raw : String) :
    (∀ ip length, Writes raw ip length → length ≤ ip.width →
      firstBits? ip.width length = some (firstBits ip.width length) ∧
        ∃ s, parse raw = .ok s ∧ s.IsCompiled ip length) ∧
    (∀ ip length, Writes raw ip length → ip.width < length →
      ∃ why, parse raw = .error (.badRequest why)) ∧
    ∀ s, parse raw = .ok s → (∃ ip length, Writes raw ip length ∧ length ≤ ip.width) ∧
      ∀ other t, parse other = .ok t → (s = t ↔ ∀ x, s.contains x = t.contains x) := by
  refine ⟨fun ip length h hle => ⟨firstBits?_eq_some hle, h.exists_parse hle⟩, ?_, ?_⟩
  · intro ip length h hlt
    rcases h.parse_of_lt hlt with ⟨why, hparse⟩
    exact ⟨_, hparse⟩
  · intro s hparse
    refine ⟨?_, fun other t _ => ⟨fun heq x => by rw [heq], eq_of_contains⟩⟩
    rcases exists_writes hparse with ⟨ip, length, hwrites⟩
    refine ⟨ip, length, hwrites, Nat.not_lt.1 fun hlt => ?_⟩
    rcases hwrites.parse_of_lt hlt with ⟨why, herror⟩
    rw [herror] at hparse
    cases hparse

/-- Two texts of one subnet, the second one with its network alone and its number of bits
spelled at length; an address inside and one outside; and a number of bits that no address
has. -/
theorem matches_exactly_with_host_bits :
    ∃ s, parse " 10.1.2.3/8\n" = .ok s ∧ parse "10.0.0.0/+08" = .ok s ∧
      s.contains (.v6 (Ip.mapped 0x0affffff#32)) = true ∧ s.contains (.v4 0x0b000000#32) = false ∧
      ∃ why, parse "::ffff:10.1.2.3/129" = .error (.badRequest why) := by
  have hhost : Writes " 10.1.2.3/8\n" (.v4 0x0a010203#32) 8 :=
    ⟨"10.1.2.3".toList, [], ['8'], by decide +kernel, by decide, by decide +kernel, .inl rfl,
      by decide, by decide, by decide⟩
  have hnetwork : Writes "10.0.0.0/+08" (.v4 0x0a000000#32) 8 :=
    ⟨"10.0.0.0".toList, ['+'], ['0', '8'], by decide +kernel, by decide, by decide +kernel,
      .inr rfl, by decide, by decide, by decide⟩
  have hlong : Writes "::ffff:10.1.2.3/129" (.v6 (Ip.mapped 0x0a010203#32)) 129 :=
    ⟨"::ffff:10.1.2.3".toList, [], ['1', '2', '9'], by decide +kernel, by decide,
      by decide +kernel, .inl rfl, by decide, by decide, by decide⟩
  rcases (matches_exactly _).1 _ _ hhost (by decide) with ⟨-, s, hs, hcompiled⟩
  rcases (matches_exactly _).1 _ _ hnetwork (by decide) with ⟨-, t, ht, hcompiled'⟩
  have hfirst : Agree 8 0x0a010203#32 0x0a000000#32 := by decide
  have hsame : ∀ x, s.contains x = t.contains x := by
    intro x
    rw [Bool.eq_iff_iff, hcompiled.contains_iff, hcompiled'.contains_iff]
    exact Ip.covers_congr hfirst x
  have heq : s = t := (((matches_exactly _).2.2 s hs).2 _ t ht).2 hsame
  refine ⟨s, hs, heq ▸ ht, ?_, ?_, (matches_exactly _).2.1 _ _ hlong (by decide)⟩
  · exact (hcompiled.contains_iff _).2 ⟨_, rfl, by decide⟩
  · refine Bool.eq_false_iff.2 fun hin => ?_
    have hagree : Agree 8 0x0a010203#32 0x0b000000#32 := (hcompiled.contains_iff _).1 hin
    exact absurd hagree (by decide)

end

end Subnet

end MetricRelay
