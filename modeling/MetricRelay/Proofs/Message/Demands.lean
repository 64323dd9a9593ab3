import MetricRelay.Proofs.Message.Binding

/-!
# What is demanded of a message

A message is accepted if it meets a list of demands, and otherwise refused for the first
one that it does not meet.  Nothing else about it counts: neither the payload of the
other kind nor, without a key, its tag.  What was accepted is written back as the
message was, without the payload of the other kind and with a tag in lower case.

Main definitions:

- `Demand`, `Demand.Refuse` and `Demand.Decide`: the first demand that is not met decides.
- `Signer.demands`: what is demanded of a message.
- `Signer.Conveys`: what an accepted message says.

Main results:

- `Hex.decode?_eq_some_iff`: digits of either case are those of the lower case.
- `Demand.Decide.exists_ok_iff`: what succeeds meets all demands.
- `Signer.decide_fromMessage`: why a message is refused.
- `Signer.accepts_exactly`: the messages that are accepted, and what they come to.
-/

namespace MetricRelay

/-! ## Digits -/

namespace Hex

open Utf8 (Bytes)

/-- A hexadecimal digit is of ASCII. -/
theorem digit_lt {n : Nat} (h : n < 16) : (digit n).toNat < 128 := by
  have hall : ∀ i : Fin 16, (digit i).toNat < 128 := by decide
  exact hall ⟨n, h⟩

/-- A hexadecimal digit stands for half a byte. -/
theorem lt_of_digitValue? {c : Char} {n : Nat} (h : digitValue? c = some n) : n < 16 := by
  unfold digitValue? at h
  simp only at h
  split at h
  · cases h
    omega
  · split at h
    · cases h
      omega
    · split at h
      · cases h
        omega
      · cases h

/-- Beyond ASCII there is no lower case. -/
theorem toLower_of_le {c : Char} (h : 128 ≤ c.toNat) : c.toLower = c := by
  unfold Char.toLower
  rw [dif_neg]
  rintro ⟨-, hle⟩
  have hlt : c.toNat ≤ 90 := hle
  omega

/-- A character is a digit of a number if its lower case is the digit for it. -/
theorem digitValue?_eq_some_iff {c : Char} {n : Nat} (h : n < 16) :
    digitValue? c = some n ↔ c.toLower = digit n := by
  by_cases hascii : c.toNat < 128
  · have hall : ∀ i : Fin 128, ∀ j : Fin 16,
        digitValue? (Char.ofNat i) = some j.val ↔ (Char.ofNat i).toLower = digit j := by
      decide +kernel
    have hc := hall ⟨c.toNat, hascii⟩ ⟨n, h⟩
    rw [Char.ofNat_toNat] at hc
    exact hc
  · have hnone : digitValue? c = none := by
      unfold digitValue?
      simp only
      rw [if_neg (by omega), if_neg (by omega), if_neg (by omega)]
    rw [hnone, toLower_of_le (Nat.le_of_not_lt hascii)]
    constructor
    · intro hc
      cases hc
    · rintro rfl
      exact absurd (digit_lt h) hascii

/-- Two digits are those of a byte. -/
theorem toUInt8_eq_iff {high low : Nat} (hhigh : high < 16) (hlow : low < 16) (b : UInt8) :
    (high * 16 + low).toUInt8 = b ↔ high = b.toNat / 16 ∧ low = b.toNat % 16 := by
  rw [← UInt8.toNat_inj, Utf8.toNat_toUInt8 (by omega)]
  omega

/-- Digits of either case stand for bytes if in lower case they are how the bytes are
written. -/
theorem decodeChars?_eq_some_iff (digits : List Char) (bytes : Bytes) :
    decodeChars? digits = some bytes ↔ digits.map Char.toLower = bytes.flatMap encodeByte := by
  fun_induction decodeChars? digits generalizing bytes with
  | case1 => cases bytes <;> simp [encodeByte]
  | case2 c => cases bytes <;> simp [encodeByte]
  | case3 a b rest ih =>
    cases bytes with
    | nil => simp [Option.bind_eq_some_iff]
    | cons x xs =>
      have hlt : x.toNat < 256 := x.toNat_lt
      rw [List.flatMap_cons, encodeByte, List.map_cons, List.map_cons, List.cons_append,
        List.cons_append, List.nil_append, List.cons.injEq, List.cons.injEq,
        ← digitValue?_eq_some_iff (by omega), ← digitValue?_eq_some_iff (by omega), ← ih]
      constructor
      · intro h
        simp only [Option.bind_eq_bind, Option.bind_eq_some_iff, Option.pure_def,
          Option.some.injEq, List.cons.injEq] at h
        rcases h with ⟨high, hhigh, low, hlow, tail, htail, hbyte, rfl⟩
        rcases (toUInt8_eq_iff (lt_of_digitValue? hhigh) (lt_of_digitValue? hlow) x).1 hbyte with
          ⟨rfl, rfl⟩
        exact ⟨hhigh, hlow, htail⟩
      · rintro ⟨hhigh, hlow, htail⟩
        have hbyte := (toUInt8_eq_iff (lt_of_digitValue? hhigh) (lt_of_digitValue? hlow) x).2
          ⟨rfl, rfl⟩
        rw [hhigh, hlow, htail]
        simp only [Option.bind_eq_bind, Option.bind_some, Option.pure_def, hbyte]

/-- A text is decoded as bytes exactly if it is their encoding, in either case of its
digits. -/
theorem decode?_eq_some_iff (s : String) (bytes : Bytes) :
    decode? s = some bytes ↔ s.map Char.toLower = encode bytes := by
  rw [decode?, decodeChars?_eq_some_iff, encode, ← String.toList_inj, String.toList_map,
    String.toList_ofList]

/-- Each byte is written with two digits. -/
theorem length_flatMap_encodeByte (bytes : Bytes) :
    (bytes.flatMap encodeByte).length = 2 * bytes.length := by
  induction bytes with
  | nil => rfl
  | cons b bytes ih =>
    rw [List.flatMap_cons, List.length_append, ih, encodeByte, List.length_cons]
    simp only [List.length_cons, List.length_nil]
    omega

/-- There are two digits for each byte. -/
theorem length_of_decode? {s : String} {bytes : Bytes} (h : decode? s = some bytes) :
    s.length = 2 * bytes.length := by
  have hlower := congrArg String.length ((decode?_eq_some_iff s bytes).1 h)
  rw [String.length_map, encode, String.length_ofList, length_flatMap_encodeByte] at hlower
  exact hlower

/-- There are nothing but digits. -/
theorem isSome_digitValue?_of_decode? {s : String} {bytes : Bytes} (h : decode? s = some bytes) :
    ∀ c ∈ s.toList, (digitValue? c).isSome = true := by
  intro c hc
  have hlower := (decodeChars?_eq_some_iff s.toList bytes).1 h
  have hmem : c.toLower ∈ bytes.flatMap encodeByte := hlower ▸ List.mem_map_of_mem hc
  rcases List.mem_flatMap.1 hmem with ⟨b, -, hb⟩
  have hlt : b.toNat < 256 := b.toNat_lt
  rw [encodeByte, List.mem_pair] at hb
  rcases hb with hhigh | hlow
  · rw [(digitValue?_eq_some_iff (by omega)).2 hhigh]
    rfl
  · rw [(digitValue?_eq_some_iff (by omega)).2 hlow]
    rfl

end Hex

/-! ## Demands -/

/-- Something that is demanded, and the failure of what does not meet it. -/
structure Demand where
  met : Prop
  failure : Failure

namespace Demand

/-- Demands that are made in their order refuse with the failure of the first one that is
not met. -/
inductive Refuse : List Demand → Failure → Prop
  | first {d : Demand} {ds : List Demand} (unmet : ¬ d.met) : Refuse (d :: ds) d.failure
  | later {d : Demand} {ds : List Demand} {e : Failure} (met : d.met) (rest : Refuse ds e) :
      Refuse (d :: ds) e

/-- An outcome is a failure exactly where demands refuse with it. -/
def Decide {α : Type} (ds : List Demand) (result : Outcome α) : Prop :=
  ∀ e, result = .error e ↔ Refuse ds e

section

variable {α : Type} {d : Demand} {ds : List Demand} {result : Outcome α}

/-- Where nothing is demanded, nothing fails. -/
theorem decide_nil (a : α) : Decide [] (.ok a : Outcome α) := by
  intro e
  constructor
  · intro h
    cases h
  · intro h
    cases h

/-- What does not meet the first demand fails as it says. -/
theorem Decide.first (hd : ¬ d.met) (h : result = .error d.failure) : Decide (d :: ds) result := by
  intro e
  rw [h]
  constructor
  · intro he
    rw [← Except.error.inj he]
    exact .first hd
  · intro hrefuse
    cases hrefuse with
    | first unmet => rfl
    | later met rest => exact absurd met hd

/-- For what meets the first demand the others decide. -/
theorem Decide.later (hd : d.met) (h : Decide ds result) : Decide (d :: ds) result := by
  intro e
  rw [h e]
  constructor
  · exact .later hd
  · intro hrefuse
    cases hrefuse with
    | first unmet => exact absurd hd unmet
    | later met rest => exact rest

/-- What is made of a success does not matter. -/
theorem Decide.map {β : Type} (h : Decide ds result) (f : α → β) : Decide ds (result.map f) := by
  intro e
  rw [← h e]
  cases result <;> simp [Except.map]

/-- What meets all demands is not refused, and nothing else is not. -/
theorem not_refuse_iff : (∀ e, ¬ Refuse ds e) ↔ ∀ d ∈ ds, d.met := by
  induction ds with
  | nil => exact ⟨fun _ d hd => absurd hd List.not_mem_nil, fun _ e he => by cases he⟩
  | cons d ds ih =>
    rw [List.forall_mem_cons, ← ih]
    constructor
    · intro h
      have hd : d.met := Classical.byContradiction fun hd => h _ (.first hd)
      exact ⟨hd, fun e he => h e (.later hd he)⟩
    · rintro ⟨hd, hds⟩ e (⟨unmet⟩ | ⟨met, rest⟩)
      · exact unmet hd
      · exact hds e rest

/-- An outcome is a success exactly if all demands are met. -/
theorem Decide.exists_ok_iff (h : Decide ds result) :
    (∃ a, result = .ok a) ↔ ∀ d ∈ ds, d.met := by
  rw [← not_refuse_iff]
  cases result with
  | ok a => exact ⟨fun _ e he => (by cases (h e).2 he), fun _ => ⟨a, rfl⟩⟩
  | error e => exact ⟨fun ⟨a, ha⟩ => (by cases ha), fun hnot => absurd ((h e).1 rfl) (hnot e)⟩

end

end Demand

/-! ## Messages -/

namespace Message

/-- The payload of a message, which is that of its kind. -/
def payload? (m : Message) : Option Value :=
  if m.kind = "counter" then m.delta.map .total
  else if m.kind = "gauge" then m.value.map .reading
  else none

/-- A message without the payload of the other kind. -/
def trimmed (m : Message) : Message :=
  { m with
    delta := if m.kind = "counter" then m.delta else none
    value := if m.kind = "gauge" then m.value else none }

/-- The payload is the field that the kind names. -/
theorem payload?_eq {m : Message} {kind : Kind} (h : Kind.ofName? m.kind = some kind) :
    m.payload? = m.value? kind := by
  have hname := Kind.ofName?_eq_some_iff.1 h
  unfold payload?
  rw [← hname]
  cases kind <;> rfl

/-- A field that the kind does not name makes no difference to the payload. -/
@[simp]
theorem payload?_trimmed (m : Message) : m.trimmed.payload? = m.payload? := by
  simp only [payload?, trimmed]
  split
  · rfl
  · split <;> rfl

/-- Without the payload of the other kind a message is the one that carries its value. -/
theorem trimmed_of_value? {m : Message} {v : Value} (hkind : v.kind.name = m.kind)
    (hvalue : m.value? v.kind = some v) :
    m.trimmed = { ofValue m.id v with hash := m.hash } := by
  unfold trimmed
  rw [← hkind]
  cases v with
  | total n =>
    rcases Option.map_eq_some_iff.1 hvalue with ⟨d, hd, hn⟩
    cases hn
    simp [ofValue, query, Kind.name, hd]
  | reading x =>
    rcases Option.map_eq_some_iff.1 hvalue with ⟨y, hy, hx⟩
    cases hx
    simp [ofValue, query, Kind.name, hy]

end Message

/-- There are two names of kinds. -/
theorem Kind.ofName?_eq_none_iff (name : String) :
    ofName? name = none ↔ ¬ (name = "counter" ∨ name = "gauge") := by
  unfold ofName?
  split
  · simp_all
  · split <;> simp_all

namespace Signer

open Utf8 (Bytes)

/-- A text is the tag of a metric: sixty-four digits of either case that stand for its
bytes. -/
structure IsTag (key : Bytes) (n : Metric) (hash : String) : Prop where
  length : hash.length = 64
  digits : ∀ c ∈ hash.toList, (Hex.digitValue? c).isSome = true
  decode : Hex.decode? hash = some (Hmac.tag key n.signedBytes)

/-- What is demanded of a message, in the order in which it is looked at: a known kind, a
name, a payload, a finite one, and its tag if there are a key and a tag. -/
def demands (s : Signer) (m : Message) : List Demand :=
  [⟨m.kind = "counter" ∨ m.kind = "gauge", .unknownKind m.kind⟩,
    ⟨m.id ≠ "", .badRequest "metric id must not be empty"⟩,
    ⟨m.payload?.isSome = true, .missingValue m.id⟩,
    ⟨∀ x, m.payload? = some (.reading x) → x.isFinite = true,
      .unreadable "gauge" (m.payload?.elim "" Value.canonical)⟩,
    ⟨s.key = none ∨ m.hash = none ∨ ∃ key hash v, s.key = some key ∧ m.hash = some hash ∧
        m.payload? = some v ∧ IsTag key ⟨m.id, v⟩ hash,
      .invalidSignature m.id⟩]

/-- What an accepted message says of its metric, and how the metric is written back. -/
structure Conveys (s : Signer) (m : Message) (n : Metric) : Prop where
  name : n.name = m.id
  kind : n.kind.name = m.kind
  payload : m.payload? = some n.value
  identity : m.identity = .ok ⟨n.kind, n.name⟩
  message : s.toMessage n = .ok { m.trimmed with
    hash := s.key.map fun key => Hex.encode (Hmac.tag key n.signedBytes) }
  hash : ∀ key hash, s.key = some key → m.hash = some hash →
    Hex.encode (Hmac.tag key n.signedBytes) = hash.map Char.toLower

variable {s : Signer} {m : Message} {n : Metric}

/-- A hash is a tag if it decodes, in either case of its digits, to the tag of the signed
bytes. -/
theorem isTag_iff {key : Bytes} {hash : String} :
    IsTag key n hash ↔ Hex.decode? hash = some (Hmac.tag key n.signedBytes) := by
  constructor
  · exact IsTag.decode
  · intro h
    refine ⟨?_, Hex.isSome_digitValue?_of_decode? h, h⟩
    rw [Hex.length_of_decode? h, Hmac.length_tag]

/-- A tag is looked at only if there is a key, and then it has to be that of the metric. -/
theorem decide_checkHash {hash : Option String} {met : Prop}
    (hmet : met ↔ s.key = none ∨ hash = none ∨
      ∃ key text, s.key = some key ∧ hash = some text ∧ IsTag key n text) :
    Demand.Decide [⟨met, .invalidSignature n.name⟩] (s.checkHash n hash) := by
  rcases s with ⟨key⟩
  cases hash with
  | none => exact (Demand.decide_nil ()).later (hmet.2 (.inr (.inl rfl)))
  | some text =>
    cases key with
    | none => exact (Demand.decide_nil ()).later (hmet.2 (.inl rfl))
    | some key =>
      have hmet' : met ↔ Hex.decode? text = some (Hmac.tag key n.signedBytes) := by
        rw [hmet, ← isTag_iff]
        simp
      cases hdecode : Hex.decode? text with
      | none =>
        refine Demand.Decide.first (fun h => ?_) ?_
        · rw [hmet', hdecode] at h
          cases h
        · simp [checkHash, isEnabled, hdecode]
      | some bytes =>
        rw [hdecode, Option.some.injEq] at hmet'
        by_cases htag : Hmac.tag key n.signedBytes = bytes
        · have hcheck : (⟨some key⟩ : Signer).checkHash n (some text) = .ok () := by
            simp [checkHash, isEnabled, hdecode, verify, sign, Except.map, bind, Except.bind, htag]
          rw [hcheck]
          exact (Demand.decide_nil ()).later (hmet'.2 htag.symm)
        · have hcheck : (⟨some key⟩ : Signer).checkHash n (some text) =
              .error (.invalidSignature n.name) := by
            simp [checkHash, isEnabled, hdecode, verify, sign, Except.map, bind, Except.bind, htag]
          exact Demand.Decide.first (fun h => htag (hmet'.1 h).symm) hcheck

/-- A message with a kind and a name is accepted if it has a finite payload and its tag is
valid. -/
theorem fromMessage_of_identity {kind : Kind} (hkind : Kind.ofName? m.kind = some kind)
    (hid : m.id ≠ "") :
    s.fromMessage m =
      match m.payload? with
      | none => .error (.missingValue m.id)
      | some v => v.finite >>= fun v => (s.checkHash ⟨m.id, v⟩ m.hash).map fun _ => ⟨m.id, v⟩ := by
  unfold fromMessage Message.identity Kind.parse
  simp only [hkind, bind, Except.bind, if_neg hid, Message.payload?_eq hkind]
  cases m.value? kind with
  | none => rfl
  | some v =>
    simp only
    cases v.finite with
    | error e => rfl
    | ok v =>
      simp only
      cases s.checkHash ⟨m.id, v⟩ m.hash <;> rfl

/-- The demands decide about a message. -/
theorem decide_fromMessage (s : Signer) (m : Message) :
    Demand.Decide (s.demands m) (s.fromMessage m) := by
  cases hkind : Kind.ofName? m.kind with
  | none =>
    refine Demand.Decide.first ((Kind.ofName?_eq_none_iff m.kind).1 hkind) ?_
    simp [fromMessage, Message.identity, Kind.parse, hkind, bind, Except.bind]
  | some kind =>
    have hknown : m.kind = "counter" ∨ m.kind = "gauge" := by
      by_contra hnot
      rw [(Kind.ofName?_eq_none_iff m.kind).2 hnot] at hkind
      cases hkind
    refine Demand.Decide.later hknown ?_
    by_cases hid : m.id = ""
    · refine Demand.Decide.first (fun h => h hid) ?_
      simp [fromMessage, Message.identity, Kind.parse, hkind, hid, bind, Except.bind]
    refine Demand.Decide.later hid ?_
    rw [fromMessage_of_identity hkind hid]
    cases hpayload : m.payload? with
    | none => exact Demand.Decide.first (by simp) rfl
    | some v =>
      refine Demand.Decide.later rfl ?_
      have hfinite : (∀ x, some v = some (.reading x) → x.isFinite = true) ↔
          v.isFinite = true := by
        cases v <;> simp [Value.isFinite]
      by_cases hv : v.isFinite = true
      · refine Demand.Decide.later (hfinite.2 hv) ?_
        simp only [Value.finite_of_isFinite hv, bind, Except.bind]
        refine (decide_checkHash (n := ⟨m.id, v⟩) ?_).map _
        simp
      · refine Demand.Decide.first (fun h => hv (hfinite.1 h)) ?_
        rw [Bool.not_eq_true] at hv
        simp only [Value.finite_of_not_isFinite hv, bind, Except.bind]
        rfl

/-- An accepted message says what its metric is. -/
theorem conveys_of_fromMessage (h : s.fromMessage m = .ok n) : s.Conveys m n := by
  rcases fromMessage_eq_ok h with ⟨hkind, hid, hne, hvalue, -⟩
  have hname := Kind.ofName?_eq_some_iff.1 hkind
  refine ⟨hid.symm, hname, ?_, ?_, ?_, ?_⟩
  · rw [Message.payload?_eq hkind, hvalue]
  · rw [Message.identity, Kind.parse, hkind]
    simp only [bind, Except.bind, if_neg hne]
    rw [hid]
  · rw [toMessage_eq, Message.trimmed_of_value? hname hvalue, hid]
    rfl
  · intro key hash hkey hhash
    exact ((Hex.decode?_eq_some_iff _ _).1 (tag_eq_of_fromMessage hkey h hhash)).symm

/-- The payload of the other kind does not count. -/
theorem fromMessage_trimmed (s : Signer) (m : Message) :
    s.fromMessage m.trimmed = s.fromMessage m := by
  cases hkind : Kind.ofName? m.kind with
  | none => simp [fromMessage, Message.identity, Kind.parse, Message.trimmed, hkind, bind,
      Except.bind]
  | some kind =>
    have hkind' : Kind.ofName? m.trimmed.kind = some kind := hkind
    by_cases hid : m.id = ""
    · simp [fromMessage, Message.identity, Kind.parse, Message.trimmed, hkind, hid, bind,
        Except.bind]
    · rw [fromMessage_of_identity hkind hid, fromMessage_of_identity hkind' hid,
        Message.payload?_trimmed]
      rfl

/-- A message is accepted exactly if it meets all demands, and otherwise refused for the
first one that it does not meet.  An accepted message says what its metric is, whatever
the payload of the other kind, and is written back without that payload and with the tag
in lower case. -/
theorem accepts_exactly (s : Signer) (m : Message) :
    ((∃ n, s.fromMessage m = .ok n) ↔ ∀ d ∈ s.demands m, d.met) ∧
      (∀ e, s.fromMessage m = .error e ↔ Demand.Refuse (s.demands m) e) ∧
      (∀ n, s.fromMessage m = .ok n → s.Conveys m n) ∧
      ∀ m' : Message, m'.trimmed = m.trimmed → s.fromMessage m' = s.fromMessage m :=
  ⟨(decide_fromMessage s m).exists_ok_iff, decide_fromMessage s m,
    fun _ => conveys_of_fromMessage, fun m' h => by
      rw [← s.fromMessage_trimmed m', h, s.fromMessage_trimmed]⟩

/-- A reading whose tag is in upper case and which comes with a total that does not count,
and a total whose tag was cut off. -/
theorem accepts_exactly_of_upper_case :
    let s := ofKey (Utf8.encode "key")
    let half : Binary64 := .finite false ⟨4602678819172646912, by decide⟩
    let hash := "F729D3C3D0ED88FBF47AFB53E4BD560E74A73B872213EC391B3037E2C6894895"
    let m : Message := ⟨"x:counter:5", "gauge", some .zero, some half, some hash⟩
    let n : Metric := ⟨"x:counter:5", .reading half⟩
    let cut : Message := { m with hash := some (hash.take 62).toString }
    let bare : Message := { m with delta := none }
    (s.fromMessage m = .ok n ∧ s.Conveys m n ∧ ∀ d ∈ s.demands m, d.met) ∧
      (bare.trimmed = m.trimmed ∧ s.fromMessage bare = s.fromMessage m) ∧
      s.fromMessage cut = .error (.invalidSignature "x:counter:5") ∧
      Demand.Refuse (s.demands cut) (.invalidSignature "x:counter:5") := by
  intro s half hash m n cut bare
  have hm : s.fromMessage m = .ok n := by decide +kernel
  have hcut : s.fromMessage cut = .error (.invalidSignature "x:counter:5") := by decide +kernel
  have hbare : bare.trimmed = m.trimmed := by decide
  rcases accepts_exactly s m with ⟨haccepted, -, hconveys, hcongr⟩
  exact ⟨⟨hm, hconveys n hm, haccepted.1 ⟨n, hm⟩⟩, ⟨hbare, hcongr bare hbare⟩, hcut,
    ((accepts_exactly s cut).2.1 _).1 hcut⟩

end Signer

end MetricRelay
