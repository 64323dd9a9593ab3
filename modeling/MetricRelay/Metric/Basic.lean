import MetricRelay.Failure
import MetricRelay.Number.Literal
import MetricRelay.Text.Blank

/-!
# Metrics

A metric has a name and a value.  The value of a counter is a running total, to which updates are
added; the value of a gauge is a reading, which updates replace.  A reading that is not finite is
never taken as an update.

Main definitions:

- `Kind`, `Value`, `Metric`.
- `Value.parse`: the value that a text stands for.
- `Metric.update`, `Metric.flush`, `Metric.acknowledge`: the ways in which a value changes.
- `Metric.addTo`: an update of what a store keeps, or its first value there.

Main results:

- `Metric.key_update`, `Metric.key_flush`, `Metric.key_acknowledge`: a metric keeps its key.
-/

namespace MetricRelay

/-- The two kinds of metric. -/
inductive Kind where
  | counter
  | gauge
  deriving DecidableEq

namespace Kind

/-- The name of a kind. -/
def name : Kind → String
  | counter => "counter"
  | gauge => "gauge"

/-- The kind of a name. -/
def ofName? (s : String) : Option Kind :=
  if s = "counter" then some counter
  else if s = "gauge" then some gauge
  else none

/-- The kind of a name; other names are an error. -/
def parse (s : String) : Outcome Kind :=
  match ofName? s with
  | some kind => .ok kind
  | none => .error (.unknownKind s)

/-- A kind is found by its name. -/
@[simp]
theorem ofName?_name (k : Kind) : ofName? k.name = some k := by
  cases k <;> decide

/-- A kind is read from its name. -/
@[simp]
theorem parse_name (k : Kind) : parse k.name = .ok k := by
  simp [parse]

end Kind

/-- The value of a metric. -/
inductive Value where
  | total (n : Count)
  | reading (x : Binary64)
  deriving DecidableEq

namespace Value

/-- The kind of metric that a value belongs to. -/
def kind : Value → Kind
  | total _ => .counter
  | reading _ => .gauge

/-- A value whose reading, if it is one, is finite. -/
def isFinite : Value → Bool
  | total _ => true
  | reading x => x.isFinite

/-- The text by which a value is stored, shown and signed. -/
def canonical : Value → String
  | total n => intText n.val
  | reading x => Binary64.canonical.render x

/-- Pass a value on unless it is a reading that is not finite. -/
def finite (v : Value) : Outcome Value :=
  if v.isFinite then .ok v else .error (.unreadable Kind.gauge.name v.canonical)

/-- The value of a kind that a text stands for; blanks around it do not count. -/
def parse (kind : Kind) (raw : String) : Outcome Value :=
  let s := Text.trim raw.toList
  match kind with
  | .counter =>
    match readCount? s with
    | some n => .ok (.total n)
    | none => .error (.unreadable kind.name raw)
  | .gauge =>
    match readDouble? s with
    | some x => (reading x).finite
    | none => .error (.unreadable kind.name raw)

/-- The value after an update; values of two kinds do not mix. -/
def merge? : Value → Value → Option Value
  | total n, total d => some (.total (n.add d))
  | reading _, reading x => some (.reading x)
  | _, _ => none

/-- The value after a flush: a total starts again at zero. -/
def flush : Value → Value
  | total _ => .total .zero
  | reading x => .reading x

/-- The value after `sent` has arrived elsewhere: a total loses what was sent. -/
def acknowledge : Value → Value → Value
  | total n, total sent => .total (n.sub sent)
  | v, _ => v

/-- How a value looks when its cell is inspected. -/
def inspected : Value → String
  | total n => "Counter(" ++ intText n.val ++ ")"
  | reading x => "Gauge(" ++ Binary64.inspected.render x ++ ")"

@[simp]
theorem kind_total (n : Count) : (total n).kind = .counter := rfl

@[simp]
theorem kind_reading (x : Binary64) : (reading x).kind = .gauge := rfl

/-- A value that is flushed is still of its kind. -/
@[simp]
theorem kind_flush (v : Value) : v.flush.kind = v.kind := by
  cases v <;> rfl

/-- A value from which something was taken away keeps its kind. -/
@[simp]
theorem kind_acknowledge (v sent : Value) : (v.acknowledge sent).kind = v.kind := by
  cases v <;> cases sent <;> rfl

/-- Values of one kind merge to a value of that kind. -/
theorem kind_of_merge? {v u w : Value} (h : v.merge? u = some w) : w.kind = v.kind := by
  cases v <;> cases u <;> simp [merge?] at h <;> subst h <;> rfl

end Value

/-- What a metric is known by. -/
structure Key where
  kind : Kind
  name : String
  deriving DecidableEq

/-- The failure to find a metric. -/
def Key.notFound (key : Key) : Failure := .notFound key.kind.name key.name

/-- A named value. -/
structure Metric where
  name : String
  value : Value
  deriving DecidableEq

namespace Metric

/-- The kind of a metric is that of its value. -/
def kind (m : Metric) : Kind := m.value.kind

/-- What a metric is known by. -/
def key (m : Metric) : Key := ⟨m.kind, m.name⟩

/-- The metric of a name, with the value that a text stands for. -/
def parse (kind : Kind) (name raw : String) : Outcome Metric :=
  (Value.parse kind raw).map fun v => ⟨name, v⟩

/-- Take an update in: a total grows by it, a reading is replaced. -/
def update (m : Metric) (u : Value) : Outcome Metric := do
  let u ← u.finite
  match m.value.merge? u with
  | some v => .ok { m with value := v }
  | none => .error (.kindMismatch m.name m.kind.name u.kind.name)

/-- The metric after an update is added to what is kept under its key, if anything is. -/
def addTo (incoming : Metric) : Option Value → Outcome Metric
  | some kept => (⟨incoming.name, kept⟩ : Metric).update incoming.value
  | none => incoming.value.finite.map fun v => ⟨incoming.name, v⟩

/-- Start a total again at zero. -/
def flush (m : Metric) : Metric := { m with value := m.value.flush }

/-- Take a delivered total away. -/
def acknowledge (m : Metric) (sent : Value) : Metric := { m with value := m.value.acknowledge sent }

/-- The text that a tag is computed over. -/
def canonical (m : Metric) : String :=
  m.name ++ ":" ++ m.kind.name ++ ":" ++ m.value.canonical

/-- How a metric looks when it is inspected. -/
def inspected (m : Metric) : String :=
  "Metric \x7b name: " ++ Text.quoted m.name ++ ", value: " ++ m.value.inspected ++ " \x7d"

/-- An update changes neither name nor kind. -/
theorem key_update {m n : Metric} {u : Value} (h : m.update u = .ok n) : n.key = m.key := by
  unfold update at h
  cases hu : u.finite with
  | error e => rw [hu] at h; cases h
  | ok w =>
    rw [hu] at h
    cases hm : m.value.merge? w with
    | none => simp [bind, Except.bind, hm] at h
    | some v =>
      simp only [bind, Except.bind, hm, Except.ok.injEq] at h
      subst h
      simp [key, kind, Value.kind_of_merge? hm]

/-- A metric keeps its key when it is flushed. -/
@[simp]
theorem key_flush (m : Metric) : m.flush.key = m.key := by
  simp [flush, key, kind]

/-- A metric from which something was taken away keeps its key. -/
@[simp]
theorem key_acknowledge (m : Metric) (sent : Value) : (m.acknowledge sent).key = m.key := by
  simp [acknowledge, key, kind]

end Metric

end MetricRelay
