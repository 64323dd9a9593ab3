import MetricRelay.Message.Basic
import MetricRelay.Signature.Signer

/-!
# Messages and metrics

A metric is sent as a message, signed if there is a key.  A message that arrives is accepted if
it names a known kind and a metric, carries a finite value of that kind, and its tag, if it has
one and there is a key, is valid.

Main definitions:

- `Signer.toMessage`, `Signer.fromMessage`.
- `Message.identity`: what a question asks about.
-/

namespace MetricRelay

namespace Message

/-- The kind and the name of a metric, for which a message needs no value. -/
def identity (m : Message) : Outcome Key := do
  let kind ← Kind.parse m.kind
  if m.id = "" then .error (.badRequest "metric id must not be empty")
  else .ok ⟨kind, m.id⟩

/-- The value of a kind that a message carries. -/
def value? (m : Message) : Kind → Option Value
  | .counter => m.delta.map .total
  | .gauge => m.value.map .reading

end Message

namespace Signer

/-- The tag of a metric. -/
def tag (s : Signer) (m : Metric) : Outcome Utf8.Bytes :=
  s.sign (.ok m.signedBytes)

/-- The message that says what a metric is, signed if there is a key. -/
def toMessage (s : Signer) (m : Metric) : Outcome Message := do
  let message := Message.ofValue m.name m.value
  if s.isEnabled then
    let tag ← s.tag m
    return { message with hash := some (Hex.encode tag) }
  else return message

/-- Check the tag that came with a metric. -/
def checkHash (s : Signer) (m : Metric) : Option String → Outcome Unit
  | none => .ok ()
  | some hash =>
    if s.isEnabled then
      match Hex.decode? hash with
      | none => .error (.invalidSignature m.name)
      | some tag => do
        if ← s.verify (.ok m.signedBytes) tag then .ok ()
        else .error (.invalidSignature m.name)
    else .ok ()

/-- The metric that a message speaks of. -/
def fromMessage (s : Signer) (m : Message) : Outcome Metric := do
  let key ← m.identity
  match m.value? key.kind with
  | none => .error (.missingValue m.id)
  | some value =>
    let value ← value.finite
    let metric : Metric := ⟨m.id, value⟩
    s.checkHash metric m.hash
    return metric

/-- The metrics of a list of messages; the first message that is refused decides. -/
def fromMessages (s : Signer) (ms : List Message) : Outcome (List Metric) :=
  ms.mapM s.fromMessage

/-- The messages of a list of metrics. -/
def toMessages (s : Signer) (ms : List Metric) : Outcome (List Message) :=
  ms.mapM s.toMessage

/-- The metrics in a body. -/
def receive (s : Signer) (body : Utf8.Bytes) : Outcome (List Metric) := do
  s.fromMessages (← Message.decodeBatch body)

end Signer

end MetricRelay
