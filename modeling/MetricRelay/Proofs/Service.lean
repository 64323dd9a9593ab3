import MetricRelay.Proofs.Http.Board
import MetricRelay.Proofs.Message.RoundTrip
import MetricRelay.Proofs.Store.Apart
import MetricRelay.Service
import MetricRelay.Store.Backed

/-!
# The service over memory

A store in asynchronous mode serves its memory and leaves the backup alone.  A
list of messages is taken by it as a whole or not at all, and what it answers to
a question is what its memory holds.

Main definitions:

- `Backed.Serves`: a store in asynchronous mode, and the content of its memory.

Main results:

- `Service.update_of_error` and `Service.update_of_add`: messages are refused
  without a trace, or answered by what their metrics come to.
- `Service.update_of_ok`: all of them are added.
- `Service.lookup_of_find?` and `Service.lookup_of_missing`: what a question
  finds.
-/

namespace MetricRelay

namespace Backed

/-- A store that writes only to its memory, which has some content. -/
structure Serves (b : Backed) (heap : Heap) (c : Content) : Prop where
  mode : b.mode = .asynchronous
  memory : Memory.Holds heap b.memory c

/-- Finite updates are added to the memory. -/
theorem Serves.add {b : Backed} {host : Host} {c : Content} (h : b.Serves host.heap c)
    {ms : List Metric} (hfinite : ∀ m ∈ ms, m.value.isFinite = true) :
    ∃ answers heap memory,
      Storage.add b (host.allocAll ms).2 (host.allocAll ms).1 =
        (.ok answers, { b with memory := memory }, { host with heap := heap }) ∧
      ({ b with memory := memory } : Backed).Serves heap (Content.add ms c).2 ∧
      answers.map heap.get = (Content.add ms c).1 := by
  rcases Memory.add_of_isFinite (h.memory.allocAll ms) (h.memory.given_allocAll ms) hfinite with
    ⟨answers, heap, memory, hadd, hholds, hanswers, -⟩
  have hshown : heap.Shows answers (Content.add ms c).1 :=
    hanswers.imp fun _ _ hx => hx.1
  refine ⟨answers, heap, memory, ?_, ⟨h.mode, hholds⟩, hshown.map_get⟩
  show Backed.add b (host.allocAll ms).2 (host.allocAll ms).1 = _
  unfold Backed.add Host.allocAll
  simp only [hadd, h.mode]

end Backed

namespace Service

section

variable {σ : Type} [Storage σ] {s : Service σ} {host : Host} {messages : List Message}

/-- If one message is refused, all of them are, and nothing changes. -/
theorem update_of_error {e : Failure} (h : s.signer.fromMessages messages = .error e) :
    s.update host messages = (.error e.asConversion, s, host) := by
  unfold update
  rw [h]
  rfl

/-- Metrics that are stored are answered by messages of what they come to. -/
theorem update_of_add {metrics ms : List Metric} {answers : List Handle} {store : σ} {host' : Host}
    (h : s.signer.fromMessages messages = .ok metrics)
    (hadd : Storage.add s.store (host.allocAll metrics).2 (host.allocAll metrics).1 =
      (.ok answers, store, host')) (hanswers : host'.getAll answers = ms) :
    s.update host messages =
      (.ok (ms.map s.signer.message), { s with store := store }, host') := by
  unfold update
  rw [h]
  simp only [Except.mapError, hadd, hanswers, Signer.toMessages_eq]

end

variable {s : Service Backed} {host : Host} {c : Content}

/-- Messages without a fault have their metrics added. -/
theorem update_of_ok {messages : List Message} {metrics : List Metric}
    (hserves : s.store.Serves host.heap c) (h : s.signer.fromMessages messages = .ok metrics) :
    ∃ heap memory, ({ s.store with memory := memory } : Backed).Serves heap
        (Content.add metrics c).2 ∧
      s.update host messages =
        (.ok ((Content.add metrics c).1.map s.signer.message),
          { s with store := { s.store with memory := memory } }, { host with heap := heap }) := by
  rcases hserves.add (Signer.isFinite_of_fromMessages h) with
    ⟨answers, heap, memory, hadd, hholds, hanswers⟩
  exact ⟨heap, memory, hholds, update_of_add h hadd hanswers⟩

/-- A question for a key that has a value is answered with a cell that shows
it. -/
theorem lookup_of_find? (hmemory : Memory.Holds host.heap s.store.memory c) {query : Message}
    {key : Key} (hquery : query.identity = .ok key) {v : Value} (hfind : c.find? key = some v) :
    ∃ cell, s.lookup host query = (.ok cell, host) ∧ host.heap.get cell = ⟨key.name, v⟩ := by
  have hcell := hmemory.get?_eq key
  rw [hfind] at hcell
  rcases hcell with ⟨cell, hget, hshows⟩
  refine ⟨cell, ?_, Heap.get_eq_of_get? hshows⟩
  unfold lookup
  rw [hquery]
  show ((s.store.memory.get key).mapError Failure.asStorage, host) = _
  rw [Memory.get, hget]
  rfl

/-- A question for any other key finds nothing. -/
theorem lookup_of_missing (hmemory : Memory.Holds host.heap s.store.memory c) {query : Message}
    {key : Key} (hquery : query.identity = .ok key) (hfind : c.find? key = none) :
    s.lookup host query = (.error key.notFound, host) := by
  have hcell := hmemory.get?_eq key
  rw [hfind] at hcell
  unfold lookup
  rw [hquery]
  show ((s.store.memory.get key).mapError Failure.asStorage, host) = _
  rw [Memory.get, hcell]
  rfl

/-- A question changes nothing. -/
theorem lookup_snd (s : Service Backed) (host : Host) (query : Message) :
    (s.lookup host query).2 = host := by
  unfold lookup
  cases query.identity with
  | error e => rfl
  | ok key => rfl

/-- To look a message up changes nothing. -/
theorem lookupMessage_snd (s : Service Backed) (host : Host) (query : Message) :
    (s.lookupMessage host query).2 = host := by
  have hhost := s.lookup_snd host query
  unfold lookupMessage
  cases hlookup : s.lookup host query with
  | mk found host' =>
    rw [hlookup] at hhost
    cases found with
    | error e => exact hhost
    | ok cell => exact hhost

end Service

end MetricRelay
