import MetricRelay.Json.Record
import MetricRelay.Json.Writer
import MetricRelay.Metric.Basic

/-!
# Messages

A message carries one update, one answer or one question about a metric.  Its kind is free text,
so that an unknown kind is noticed where the message is understood and not where it is read.

Main definitions:

- `Message` and `Message.query`.
- `Message.json`: the text that travels.
- `Message.ofRecord?`: the message that a record stands for.
- `Message.decodeOne`, `Message.decodeBatch`, `Message.decodePath`: the three ways in which
  messages arrive.
-/

namespace MetricRelay

open Utf8 (Bytes)

/-- What is said about one metric. -/
structure Message where
  id : String
  kind : String
  delta : Option Count
  value : Option Binary64
  hash : Option String
  deriving DecidableEq

namespace Message

/-- A question: it names a metric and carries no value. -/
def query (id kind : String) : Message := ⟨id, kind, none, none, none⟩

/-- The message that carries a value of its kind. -/
def ofValue (id : String) : Value → Message
  | .total n => { query id Kind.counter.name with delta := some n }
  | .reading x => { query id Kind.gauge.name with value := some x }

/-! ## Writing -/

/-- A number; one that is not finite has no form and is written as null. -/
def jsonNumber (x : Binary64) : List Char :=
  if x.isFinite then Binary64.wire.chars x else "null".toList

/-- The members of a message, in their order; absent ones are left out. -/
def members (m : Message) : List (List Char) :=
  [Json.member "id" (Json.quote m.id), Json.member "type" (Json.quote m.kind)] ++
    (m.delta.map fun n => Json.member "delta" (intChars n.val)).toList ++
    (m.value.map fun x => Json.member "value" (jsonNumber x)).toList ++
    (m.hash.map fun h => Json.member "hash" (Json.quote h)).toList

/-- The text of a message. -/
def json (m : Message) : List Char := Json.object m.members

/-- The text of a list of messages. -/
def jsonList (ms : List Message) : List Char := Json.list (ms.map json)

/-! ## Reading -/

/-- A counter's update: an integer literal of a total, the sign of zero excluded. -/
def count? : Json.Scalar → Option Count
  | .number literal =>
    if literal.all (fun c => isDigit c || c = '-') && literal ≠ ['-', '0'] then readCount? literal
    else none
  | _ => none

/-- A gauge's update: any number that does not round to infinity. -/
def double? : Json.Scalar → Option Binary64
  | .number literal => (readNumeral? literal).filter Binary64.isFinite
  | _ => none

/-- A text. -/
def text? : Json.Scalar → Option String
  | .text content => content
  | _ => none

/-- The message that a record stands for. -/
def ofRecord? (r : Json.Record) : Option Message := do
  match ← r.fields? ["id", "type", "delta", "value", "hash"] 2 with
  | [id, kind, delta, value, hash] =>
    return { id := ← Json.Field.text? id
             kind := ← Json.Field.text? kind
             delta := ← Json.Field.optional? count? delta
             value := ← Json.Field.optional? double? value
             hash := ← Json.Field.optional? text? hash }
  | _ => none

/-- A message and the bytes after it. -/
def read? (s : Bytes) : Option (Message × Bytes) :=
  match Json.readRecord? s with
  | some (r, t) => (ofRecord? r).map (·, t)
  | none => none

/-- A body that is one message. -/
def decodeOne (body : Bytes) : Outcome Message :=
  match Json.whole? (read? body) with
  | some m => .ok m
  | none => .error (.badRequest "invalid metric json: not one metric message")

/-- The blanks that may stand before the bracket of a list of messages. -/
def isLeadingBlank (b : UInt8) : Bool :=
  [0x20, 0x09, 0x0a, 0x0c, 0x0d].contains b

/-- A body that is a list of messages, or one message. -/
def decodeBatch (body : Bytes) : Outcome (List Message) :=
  if (body.dropWhile isLeadingBlank).head? = some (Json.byte '[') then
    match Json.whole? (Json.readList? read? body) with
    | some ms => .ok ms
    | none => .error (.badRequest "invalid metric batch json: not a list of metric messages")
  else
    (decodeOne body).map fun m => [m]

/-- A message in three parts of a path.  The kind is looked at before the value. -/
def decodePath (kind name raw : String) : Outcome Message := do
  let kind ← Kind.parse kind
  let value ← Value.parse kind raw
  return ofValue name value

end Message

end MetricRelay
