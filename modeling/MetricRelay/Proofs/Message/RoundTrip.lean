import MetricRelay.Message.Convert
import MetricRelay.Proofs.Json.Records
import MetricRelay.Proofs.Number.Layout

/-!
# Metrics on the wire

A metric is sent as a message, a message is written as a JSON object, and a list
of messages as a JSON list.  The receiver reads the text back, recomputes the
tag, and has the same metric again, bit for bit.

Main results:

- `Message.reads_json`: a message is read from its text, but for a value that is
  not finite.
- `Signer.fromMessage_message`: a metric is taken back from its message.
- `Signer.wire_round_trip`: metrics arrive as they were sent.
-/

namespace MetricRelay

open Utf8 (Bytes encodeChars)
open Json (Reads Field)

/-! ## Numbers -/

/-- An integer is read as the number it was written as. -/
theorem reads_intChars (n : Int) :
    Reads Json.token? (intChars n) (.scalar (.number (intChars n))) := by
  rcases intChars_eq_signed n with ⟨negative, size, h⟩
  rw [h]
  exact Json.reads_literal (valid_natLiteral size) negative

/-- A finite double is a token in any layout. -/
theorem Layout.reads_chars (l : Layout) {x : Binary64} (h : x.isFinite = true) :
    Reads Json.token? (l.chars x) (.scalar (.number (l.chars x))) := by
  cases x with
  | nan => cases h
  | infinite => cases h
  | finite negative rank =>
    rw [Layout.chars_finite]
    exact Json.reads_literal (Layout.valid_literal l rank.val) negative

/-- A negative integer is not written as zero. -/
theorem natChars_ne_zero {n : Nat} (h : 0 < n) : natChars n ≠ ['0'] := by
  intro hzero
  have hhead := head?_natChars h
  rw [hzero] at hhead
  exact hhead rfl

namespace Message

/-- A total is read back. -/
theorem count?_intChars (n : Count) : count? (.number (intChars n.val)) = some n := by
  have hread := readCount?_intChars n
  have hdigits (m : Nat) : (natChars m).all (fun c => isDigit c || c = '-') = true := by
    rw [List.all_eq_true]
    intro c hc
    rw [isDigit_of_mem_natChars hc]
    rfl
  have hshape : ((intChars n.val).all (fun c => isDigit c || c = '-') = true) ∧
      intChars n.val ≠ ['-', '0'] := by
    cases n.val with
    | ofNat m =>
      constructor
      · exact hdigits m
      · intro heq
        have hmem : '-' ∈ natChars m := by
          have heq : natChars m = ['-', '0'] := heq
          rw [heq]
          exact List.mem_cons_self
        exact absurd (isDigit_of_mem_natChars hmem) (by decide)
    | negSucc m =>
      constructor
      · show (('-' :: natChars (m + 1)).all fun c => isDigit c || c = '-') = true
        rw [List.all_cons, hdigits]
        rfl
      · intro heq
        have htail : natChars (m + 1) = ['0'] := List.tail_eq_of_cons_eq heq
        exact natChars_ne_zero (Nat.succ_pos m) htail
  rw [count?, hshape.1, decide_eq_true hshape.2]
  exact hread

/-- A finite double is read back, in any layout. -/
theorem double?_chars (l : Layout) {x : Binary64} (h : x.isFinite = true) :
    double? (.number (l.chars x)) = some x := by
  rw [double?, l.readNumeral?_chars h, Option.filter_some, if_pos h]

/-! ## Messages -/

/-- A number, as a reader finds it; one that is not finite is null. -/
def numberField (x : Binary64) : Field :=
  if x.isFinite then .scalar (.number (Binary64.wire.chars x)) else .scalar .null

/-- The fields of a message, as a reader finds them. -/
def fields (m : Message) : List (String × Field) :=
  [("id", .scalar (.text (some m.id))), ("type", .scalar (.text (some m.kind)))] ++
    (m.delta.map fun n => ("delta", Field.scalar (.number (intChars n.val)))).toList ++
    (m.value.map fun x => ("value", numberField x)).toList ++
    (m.hash.map fun h => ("hash", Field.scalar (.text (some h)))).toList

/-- A message whose value, if it has one, is finite. -/
def IsFinite (m : Message) : Prop := ∀ x ∈ m.value, x.isFinite = true

/-- What a reader makes of a message: a value that is not finite gets lost. -/
def received (m : Message) : Message := { m with value := m.value.filter Binary64.isFinite }

/-- A message without infinite values is received as it was sent. -/
theorem received_eq_self {m : Message} (h : m.IsFinite) : m.received = m := by
  rcases m with ⟨id, kind, delta, value, hash⟩
  cases value with
  | none => rfl
  | some x =>
    have hx : x.isFinite = true := h x rfl
    rw [received, Option.filter_some, if_pos hx]

/-- Optional parts are read back if each of them is. -/
theorem forall₂_toList {α β γ : Type} {R : β → γ → Prop} {f : α → β} {g : α → γ} {o : Option α}
    (h : ∀ a ∈ o, R (f a) (g a)) : List.Forall₂ R (o.map f).toList (o.map g).toList := by
  cases o with
  | none => exact .nil
  | some a => exact .cons (h a rfl) .nil

/-- A reading is read as a number, or as nothing if it is not finite. -/
theorem reads_jsonNumber (x : Binary64) :
    Reads Json.readField? (jsonNumber x) (numberField x) := by
  rw [jsonNumber, numberField]
  by_cases h : x.isFinite = true
  · rw [if_pos h, if_pos h]
    exact (Binary64.wire.reads_chars h).field
  · rw [if_neg h, if_neg h]
    exact Json.reads_null.field

/-- The members of a message are read as its fields, one after the other. -/
theorem reads_members (m : Message) :
    List.Forall₂ (Reads Json.readNamedField?) m.members m.fields := by
  have htext (key s : String) :
      Reads Json.readNamedField? (Json.member key (Json.quote s)) (key, .scalar (.text (some s))) :=
    Json.reads_member key (Json.reads_quote s).field
  have hdelta (n : Count) : Reads Json.readNamedField? (Json.member "delta" (intChars n.val))
      ("delta", .scalar (.number (intChars n.val))) :=
    Json.reads_member "delta" (reads_intChars n.val).field
  have hvalue (x : Binary64) : Reads Json.readNamedField? (Json.member "value" (jsonNumber x))
      ("value", numberField x) :=
    Json.reads_member "value" (reads_jsonNumber x)
  refine List.rel_append (List.rel_append (List.rel_append ?_ ?_) ?_) ?_
  · exact .cons (htext "id" m.id) (.cons (htext "type" m.kind) .nil)
  · exact forall₂_toList fun n _ => hdelta n
  · exact forall₂_toList fun x _ => hvalue x
  · exact forall₂_toList fun t _ => htext "hash" t

/-- The five fields of a message are found under their names. -/
theorem fields?_fields (m : Message) :
    (Json.Record.named m.fields).fields? ["id", "type", "delta", "value", "hash"] 2 =
      some [some (.scalar (.text (some m.id))), some (.scalar (.text (some m.kind))),
        m.delta.map fun n => .scalar (.number (intChars n.val)),
        m.value.map numberField,
        m.hash.map fun h => .scalar (.text (some h))] := by
  rcases m with ⟨id, kind, delta, value, hash⟩
  cases delta <;> cases value <;> cases hash <;>
    simp [fields, Json.Record.fields?, Json.Record.named?]

/-- The fields of a message stand for what is received of it. -/
theorem ofRecord?_fields (m : Message) : ofRecord? (.named m.fields) = some m.received := by
  have hdelta : Field.optional? count?
      (m.delta.map fun n => .scalar (.number (intChars n.val))) = some m.delta := by
    cases hd : m.delta with
    | none => rfl
    | some n => simp [Field.optional?, count?_intChars]
  have hvalue : Field.optional? double? (m.value.map numberField) = some m.received.value := by
    rw [received]
    cases m.value with
    | none => rfl
    | some x =>
      rw [Option.map_some, Option.filter_some, numberField]
      by_cases hx : x.isFinite = true
      · rw [if_pos hx, if_pos hx, Field.optional?, double?_chars Binary64.wire hx]
        · rfl
        · intro hnull
          cases hnull
      · rw [if_neg hx, if_neg hx]
        rfl
  have hhash : Field.optional? text? (m.hash.map fun t => .scalar (.text (some t))) =
      some m.hash := by
    cases m.hash <;> rfl
  simp [ofRecord?, fields?_fields, hdelta, hvalue, hhash, Field.text?, received]

/-- A message is read from its text. -/
theorem reads_json (m : Message) : Reads read? m.json m.received := by
  intro r hr
  have hrecord := Json.reads_object (reads_members m) Json.isBlank_nil r hr
  rw [List.append_nil] at hrecord
  rw [read?, json, Json.object, hrecord]
  simp only [ofRecord?_fields, Option.map_some]

/-- A message does not start with a bracket that closes. -/
theorem refusesClosing_read? : Json.RefusesClosing read? := by
  intro s b r h
  rw [read?, Json.refusesClosing_readRecord? s b r h]

/-- The body of a request with a list of messages. -/
def body (ms : List Message) : Bytes := encodeChars (jsonList ms)

/-- A message is decoded from its text. -/
theorem decodeOne_json (m : Message) : decodeOne (encodeChars m.json) = .ok m.received := by
  rw [decodeOne, Json.whole?_of_reads (reads_json m)]

/-- A list of messages is decoded from its body. -/
theorem decodeBatch_body (ms : List Message) :
    decodeBatch (body ms) = .ok (ms.map received) := by
  have hitems : List.Forall₂ (Reads read?) (ms.map json) (ms.map received) := by
    rw [List.forall₂_map_left_iff, List.forall₂_map_right_iff, List.forall₂_same]
    exact fun m _ => reads_json m
  have hlist := Json.reads_list refusesClosing_read? hitems Json.isBlank_nil
  rw [List.append_nil] at hlist
  have hhead : ((body ms).dropWhile isLeadingBlank).head? = some (Json.byte '[') := by
    rw [body, jsonList, Json.list, List.cons_append, Json.encodeChars_cons_of_lt (by decide)]
    rfl
  rw [decodeBatch, if_pos hhead]
  simp only [body, jsonList, Json.list]
  rw [Json.whole?_of_reads hlist]

end Message

/-! ## Metrics -/

namespace Signer

/-- The message that says what a metric is. -/
def message (s : Signer) (m : Metric) : Message :=
  { Message.ofValue m.name m.value with
    hash := s.key.map fun key => Hex.encode (Hmac.tag key m.signedBytes) }

/-- A metric always has a message. -/
theorem toMessage_eq (s : Signer) (m : Metric) : s.toMessage m = .ok (s.message m) := by
  rcases s with ⟨key⟩
  cases key with
  | none => cases hv : m.value <;> simp [toMessage, message, isEnabled, hv, Message.ofValue,
      Message.query, pure, Except.pure]
  | some key => simp [toMessage, message, isEnabled, tag, sign, bind, Except.bind, pure, Except.pure]

/-- A list of metrics always has messages, one each. -/
theorem toMessages_eq (s : Signer) (ms : List Metric) :
    s.toMessages ms = .ok (ms.map s.message) := by
  induction ms with
  | nil => rfl
  | cons m ms ih =>
    rw [toMessages] at ih
    rw [toMessages, List.mapM_cons, toMessage_eq, ih]
    rfl

@[simp]
theorem message_id (s : Signer) (m : Metric) : (s.message m).id = m.name := by
  cases h : m.value <;> simp [message, Message.ofValue, Message.query, h]

@[simp]
theorem message_kind (s : Signer) (m : Metric) : (s.message m).kind = m.kind.name := by
  cases h : m.value <;> simp [message, Message.ofValue, Message.query, Metric.kind, h]

@[simp]
theorem value?_message (s : Signer) (m : Metric) : (s.message m).value? m.kind = some m.value := by
  cases h : m.value <;>
    simp [message, Message.ofValue, Message.query, Metric.kind, Message.value?, h]

/-- The message of a finite metric can be sent as it is. -/
theorem isFinite_message (s : Signer) {m : Metric} (h : m.value.isFinite = true) :
    (s.message m).IsFinite := by
  intro x hx
  cases hv : m.value with
  | total n => simp [message, Message.ofValue, Message.query, hv] at hx
  | reading y =>
    simp only [message, Message.ofValue, hv, Option.mem_def, Option.some.injEq] at hx
    rw [hv] at h
    rw [← hx]
    exact h

/-- The tag of a metric is accepted with it. -/
theorem checkHash_message (s : Signer) (m : Metric) :
    s.checkHash m (s.message m).hash = .ok () := by
  rcases s with ⟨key⟩
  cases key with
  | none => rfl
  | some key =>
    have hverify : (⟨some key⟩ : Signer).verify (.ok m.signedBytes) (Hmac.tag key m.signedBytes) =
        .ok true := verify_sign rfl
    simp only [checkHash, message, Option.map_some, isEnabled, Option.isSome_some, if_true,
      Hex.decode?_encode, hverify, bind, Except.bind]

/-- A metric is taken back from its message. -/
theorem fromMessage_message (s : Signer) {m : Metric} (hname : m.name ≠ "")
    (hfinite : m.value.isFinite = true) : s.fromMessage (s.message m) = .ok m := by
  have hidentity : (s.message m).identity = .ok m.key := by
    rw [Message.identity, message_kind, Kind.parse_name]
    simp only [bind, Except.bind, message_id, if_neg hname]
    rfl
  have hvalue : m.value.finite = .ok m.value := by
    rw [Value.finite, if_pos hfinite]
  have hkind : m.key.kind = m.kind := rfl
  simp only [fromMessage, hidentity, bind, Except.bind, hkind, value?_message, hvalue,
    message_id, checkHash_message, pure, Except.pure]

/-- Metrics with names and finite values come back from their messages. -/
theorem fromMessages_message (s : Signer) {ms : List Metric} (hname : ∀ m ∈ ms, m.name ≠ "")
    (hfinite : ∀ m ∈ ms, m.value.isFinite = true) :
    s.fromMessages (ms.map s.message) = .ok ms := by
  induction ms with
  | nil => rfl
  | cons m ms ih =>
    have htail := ih (fun n hn => hname n (List.mem_cons_of_mem _ hn))
      (fun n hn => hfinite n (List.mem_cons_of_mem _ hn))
    rw [fromMessages] at htail
    rw [fromMessages, List.map_cons, List.mapM_cons,
      s.fromMessage_message (hname m List.mem_cons_self) (hfinite m List.mem_cons_self), htail]
    rfl

/-- Metrics are taken back from the body that they are sent in. -/
theorem receive_message (s : Signer) {ms : List Metric} (hname : ∀ m ∈ ms, m.name ≠ "")
    (hfinite : ∀ m ∈ ms, m.value.isFinite = true) :
    s.receive (Message.body (ms.map s.message)) = .ok ms := by
  have hreceived : (ms.map s.message).map Message.received = ms.map s.message := by
    rw [List.map_map]
    apply List.map_congr_left
    intro m hm
    exact Message.received_eq_self (s.isFinite_message (hfinite m hm))
  rw [receive, Message.decodeBatch_body, hreceived]
  exact s.fromMessages_message hname hfinite

/-- A metric is taken back from the body that it is sent in alone. -/
theorem receiveOne_message (s : Signer) {m : Metric} (hname : m.name ≠ "")
    (hfinite : m.value.isFinite = true) :
    (Message.decodeOne (encodeChars (s.message m).json) >>= s.fromMessage) = .ok m := by
  rw [Message.decodeOne_json, Message.received_eq_self (s.isFinite_message hfinite)]
  exact s.fromMessage_message hname hfinite

/-- Whatever the key, metrics with names and finite values arrive as they were
sent: as a list in one body, and each of them in a body of its own. -/
theorem wire_round_trip (s : Signer) (ms : List Metric) (hname : ∀ m ∈ ms, m.name ≠ "")
    (hfinite : ∀ m ∈ ms, m.value.isFinite = true) :
    (∃ messages, s.toMessages ms = .ok messages ∧ s.receive (Message.body messages) = .ok ms) ∧
      ∀ m ∈ ms, ∃ message, s.toMessage m = .ok message ∧
        (Message.decodeOne (encodeChars message.json) >>= s.fromMessage) = .ok m := by
  constructor
  · exact ⟨ms.map s.message, s.toMessages_eq ms, s.receive_message hname hfinite⟩
  · intro m hm
    exact ⟨s.message m, s.toMessage_eq m, s.receiveOne_message (hname m hm) (hfinite m hm)⟩

/-- A signed list with a name of quotes, line ends and characters from everywhere,
a negative zero, and the least total. -/
theorem wire_round_trip_of_odd_names :
    (∃ messages,
      (Signer.ofText? (some "key")).toMessages
          [⟨"a\"b\\\n\u2028\x01😀", .reading (.zero true)⟩, ⟨"c", .total (.clamp Count.least)⟩] =
        .ok messages ∧
      (Signer.ofText? (some "key")).receive (Message.body messages) =
        .ok [⟨"a\"b\\\n\u2028\x01😀", .reading (.zero true)⟩, ⟨"c", .total (.clamp Count.least)⟩]) ∧
      ∀ m ∈ [(⟨"a\"b\\\n\u2028\x01😀", .reading (.zero true)⟩ : Metric),
          ⟨"c", .total (.clamp Count.least)⟩],
        ∃ message, (Signer.ofText? (some "key")).toMessage m = .ok message ∧
          (Message.decodeOne (encodeChars message.json) >>=
            (Signer.ofText? (some "key")).fromMessage) = .ok m :=
  wire_round_trip _ _ (by decide) (by decide)

end Signer

end MetricRelay
