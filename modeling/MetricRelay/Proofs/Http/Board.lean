import Mathlib.Data.List.Forall2
import MetricRelay.Http.Route
import MetricRelay.Message.Convert
import MetricRelay.Proofs.Store.Content

/-!
# What requests say

Seen from outside, a server keeps one value for each key.  A message adds to the
total of its counter or replaces the reading of its gauge, and a request stands
for the messages that it brings.  This file says what the messages of accepted
requests come to, without stores, cells or signatures, and proves that a list of
metrics takes them in the same way.

Main definitions:

- `Board` and `Board.take`: a value for each key, and the effect of a message.
- `Http.Request.updates`: the messages that a request brings.
- `Board.after`: the effect of a request, given the status of its answer.

Main results:

- `Signer.fromMessage_eq_ok`: what is known of a message that is accepted.
- `Content.board_add`: metrics from accepted messages come to what the messages
  say.
-/

namespace MetricRelay

/-! ## Boards -/

/-- The value under each key, for keys that have one. -/
abbrev Board := Key → Option Value

namespace Board

/-- No values. -/
def empty : Board := fun _ => none

/-- Have a value under a key. -/
def set (board : Board) (key : Key) (v : Value) : Board :=
  fun k => if k = key then some v else board k

/-- A total that starts with an update or grows by it, up to the ends of the
range. -/
def grown (kept : Option Value) (d : Count) : Count :=
  match kept with
  | some (.total n) => n.add d
  | _ => d

/-- Growing is how a total comes onto what a store keeps. -/
theorem total_grown (kept : Option Value) (d : Count) :
    Value.total (grown kept d) = (Value.total d).onto kept := by
  cases kept with
  | none => rfl
  | some v => cases v <;> rfl

/-- A message adds to the total of its counter or replaces the reading of its
gauge. -/
def take (board : Board) (m : Message) : Board :=
  match Kind.ofName? m.kind, m.delta, m.value with
  | some .counter, some d, _ =>
    board.set ⟨.counter, m.id⟩ (.total (grown (board ⟨.counter, m.id⟩) d))
  | some .gauge, _, some x => board.set ⟨.gauge, m.id⟩ (.reading x)
  | _, _, _ => board

/-- Messages are taken in their order. -/
def takeAll (board : Board) (ms : List Message) : Board := ms.foldl take board

/-- A message for a counter adds its delta. -/
theorem take_counter (board : Board) {m : Message} {d : Count}
    (hkind : Kind.ofName? m.kind = some .counter) (hdelta : m.delta = some d) :
    board.take m =
      board.set ⟨.counter, m.id⟩ (.total (grown (board ⟨.counter, m.id⟩) d)) := by
  unfold take
  simp only [hkind, hdelta]

/-- A message for a gauge replaces its reading. -/
theorem take_gauge (board : Board) {m : Message} {x : Binary64}
    (hkind : Kind.ofName? m.kind = some .gauge) (hvalue : m.value = some x) :
    board.take m = board.set ⟨.gauge, m.id⟩ (.reading x) := by
  unfold take
  simp only [hkind, hvalue]

end Board

/-! ## Requests -/

namespace Http

/-- The messages that a body or a path holds, if it can be read. -/
def held (messages : Outcome (List Message)) : List Message := messages.toOption.getD []

/-- Whether a target takes updates. -/
def Target.isUpdate : Target → Bool
  | .updatePath .. | .updateOne | .updateBatch => true
  | .report | .ping | .valuePath .. | .valueOne => false

/-- The messages that are sent to a target. -/
def Target.updates (target : Target) (body : Utf8.Bytes) : List Message :=
  match target with
  | .updatePath type name value =>
    match parameter "mtype" type, parameter "name" name, parameter "value" value with
    | .ok type, .ok name, .ok value => held ((Message.decodePath type name value).map fun m => [m])
    | _, _, _ => []
  | .updateOne => held ((Message.decodeOne body).map fun m => [m])
  | .updateBatch => held (Message.decodeBatch body)
  | .report | .ping | .valuePath .. | .valueOne => []

/-- Whether a request is one for an update. -/
def Request.isUpdate (r : Request) : Bool :=
  r.method = "POST" && (Target.ofPath? r.path).any Target.isUpdate

/-- The messages that a request for an update brings; any other brings none. -/
def Request.updates (r : Request) : List Message :=
  if r.method = "POST" then
    match Target.ofPath? r.path with
    | some target => target.updates r.body
    | none => []
  else []

/-- A target that is not for updates brings none, whatever the body is. -/
theorem Target.updates_of_not_isUpdate {target : Target} (h : target.isUpdate = false)
    (body : Utf8.Bytes) : target.updates body = [] := by
  cases target with
  | updatePath type name value => cases h
  | updateOne => cases h
  | updateBatch => cases h
  | report => rfl
  | ping => rfl
  | valuePath type name => rfl
  | valueOne => rfl

/-- A request whose target is no update updates nothing. -/
theorem Request.updates_of_not_isUpdate {r : Request} (h : r.isUpdate = false) :
    r.updates = [] := by
  unfold isUpdate at h
  unfold updates
  by_cases hmethod : r.method = "POST"
  · rw [if_pos hmethod]
    cases htarget : Target.ofPath? r.path with
    | none => rfl
    | some target =>
      rw [decide_eq_true hmethod, Bool.true_and, htarget, Option.any_some] at h
      exact Target.updates_of_not_isUpdate h r.body
  · rw [if_neg hmethod]

end Http

namespace Board

/-- What a request does: if it was answered as accepted, its messages are
taken. -/
def after (board : Board) (r : Http.Request) (status : Nat) : Board :=
  if status = 200 then board.takeAll r.updates else board

/-- What requests do one after the other, each with its response. -/
def afterAll (board : Board) (answered : List (Http.Request × Http.Response)) : Board :=
  answered.foldl (fun board x => board.after x.1 x.2.status) board

theorem afterAll_cons (board : Board) (x : Http.Request × Http.Response)
    (answered : List (Http.Request × Http.Response)) :
    board.afterAll (x :: answered) = (board.after x.1 x.2.status).afterAll answered :=
  rfl

/-- A request that is not accepted changes nothing. -/
theorem after_of_refused (board : Board) (r : Http.Request) {status : Nat} (h : status ≠ 200) :
    board.after r status = board :=
  if_neg h

/-- A request that is no update leaves the board. -/
theorem after_of_not_isUpdate (board : Board) {r : Http.Request} (h : r.isUpdate = false)
    (status : Nat) : board.after r status = board := by
  unfold after
  rw [Http.Request.updates_of_not_isUpdate h]
  by_cases hstatus : status = 200
  · rw [if_pos hstatus]
    rfl
  · rw [if_neg hstatus]

end Board

/-! ## Accepted messages -/

namespace Signer

variable {s : Signer} {m : Message} {n : Metric}

/-- A message that is accepted names the kind and the metric, and carries its
value. -/
theorem fromMessage_eq_ok (h : s.fromMessage m = .ok n) :
    Kind.ofName? m.kind = some n.kind ∧ m.id = n.name ∧ m.id ≠ "" ∧
      m.value? n.kind = some n.value ∧ n.value.isFinite = true := by
  unfold fromMessage Message.identity Kind.parse at h
  cases hkind : Kind.ofName? m.kind with
  | none => simp [hkind, bind, Except.bind] at h
  | some kind =>
    by_cases hid : m.id = ""
    · simp [hkind, hid, bind, Except.bind] at h
    · cases hvalue : m.value? kind with
      | none => simp [hkind, hid, hvalue, bind, Except.bind] at h
      | some v =>
        by_cases hfinite : v.isFinite = true
        · simp only [hkind, hid, hvalue, if_false, bind, Except.bind,
            Value.finite_of_isFinite hfinite] at h
          cases hhash : s.checkHash ⟨m.id, v⟩ m.hash with
          | error e => simp [hhash] at h
          | ok u =>
            simp only [hhash, pure, Except.pure, Except.ok.injEq] at h
            subst h
            have hv : v.kind = kind := by
              cases kind with
              | counter =>
                rcases Option.map_eq_some_iff.1 hvalue with ⟨d, -, rfl⟩
                rfl
              | gauge =>
                rcases Option.map_eq_some_iff.1 hvalue with ⟨x, -, rfl⟩
                rfl
            refine ⟨congrArg some hv.symm, rfl, hid, ?_, hfinite⟩
            show m.value? v.kind = some v
            rw [hv]
            exact hvalue
        · rw [Bool.not_eq_true] at hfinite
          simp [hkind, hid, hvalue, Value.finite_of_not_isFinite hfinite, bind, Except.bind] at h

/-- An accepted message is taken as its metric. -/
theorem take_of_fromMessage (h : s.fromMessage m = .ok n) (board : Board) :
    board.take m = board.set n.key (n.value.onto (board n.key)) := by
  rcases fromMessage_eq_ok h with ⟨hkind, hid, -, hvalue, -⟩
  rcases n with ⟨name, v⟩
  cases v with
  | total d =>
    have hdelta : m.delta = some d := by
      simpa [Message.value?, Metric.kind] using hvalue
    rw [board.take_counter hkind hdelta, Board.total_grown, hid]
    rfl
  | reading x =>
    have hreading : m.value = some x := by
      simpa [Message.value?, Metric.kind] using hvalue
    rw [board.take_gauge hkind hreading, hid]
    rfl

end Signer

namespace Content

/-- The values of a content by their keys. -/
def board (c : Content) : Board := fun key => c.find? key

/-- To put a metric into a content is to set its key. -/
theorem board_put (c : Content) (m : Metric) : board (c.put m) = (board c).set m.key m.value := by
  funext key
  show (c.put m).find? key = if key = m.key then some m.value else c.find? key
  rw [find?_put]
  by_cases hkey : m.key = key
  · rw [if_pos hkey, if_pos hkey.symm]
  · rw [if_neg hkey, if_neg (Ne.symm hkey)]

/-- Each update has an answer. -/
theorem length_add (ms : List Metric) (c : Content) : (add ms c).1.length = ms.length := by
  induction ms generalizing c with
  | nil => rfl
  | cons m ms ih =>
    show (add ms (c.put (c.next m))).1.length + 1 = ms.length + 1
    rw [ih]

/-- Metrics from accepted messages come to what the messages say. -/
theorem board_add {s : Signer} {ms : List Message} {metrics : List Metric}
    (h : s.fromMessages ms = .ok metrics) (c : Content) :
    board (add metrics c).2 = (board c).takeAll ms := by
  have hread := forall₂_of_mapM h
  clear h
  induction hread generalizing c with
  | nil => rfl
  | @cons m n ms ns hm _ ih =>
    have hone : board (c.put (c.next n)) = (board c).take m := by
      rw [board_put, key_next, Signer.take_of_fromMessage hm]
      rfl
    show board (add ns (c.put (c.next n))).2 = ((board c).take m).takeAll ms
    rw [ih, hone]

end Content

/-- Each accepted message is a metric. -/
theorem Signer.length_fromMessages {s : Signer} {ms : List Message} {metrics : List Metric}
    (h : s.fromMessages ms = .ok metrics) : metrics.length = ms.length :=
  (forall₂_of_mapM h).length_eq.symm

/-- Accepted messages carry finite values. -/
theorem Signer.isFinite_of_fromMessages {s : Signer} {ms : List Message} {metrics : List Metric}
    (h : s.fromMessages ms = .ok metrics) : ∀ n ∈ metrics, n.value.isFinite = true :=
  forall_of_mapM (fun _ _ hm => (fromMessage_eq_ok hm).2.2.2.2) h

end MetricRelay
