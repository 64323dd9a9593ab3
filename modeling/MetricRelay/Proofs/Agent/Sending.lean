import MetricRelay.Agent.Pusher
import MetricRelay.Proofs.Message.RoundTrip

/-!
# Sending chunks

All pushes are one loop over chunks, whoever follows it and whatever else goes on
meanwhile.  Followers who see the same of a push see the same at its end, and what each
step keeps holds at the end as well.

Main definitions:

- `Pusher.pushOf`: the request with a chunk.
- `Network.nth` and `Network.replies`: what happens to the request of some number, and the
  replies to the first ones.
- `Course.Maps`: a follower of a push from whose states those of another can be told.

Main results:

- `Pusher.sendChunks_map`: two followers of one push.
- `Pusher.sendChunks_keeps`: what holds at every step holds at the end.
- `Pusher.pushChunks_cons`: one chunk of a push that nobody follows.
-/

namespace MetricRelay.Agent

/-! ## Requests -/

namespace Network

/-- What happens to the request of some number, counted from zero. -/
def nth (n : Network) (i : Nat) : Exchange := n.exchanges[i]?.getD ⟨[], n.otherwise⟩

/-- The first request is the next one. -/
theorem nth_zero (n : Network) : n.nth 0 = n.next.1 := by
  rcases n with ⟨exchanges, otherwise⟩
  cases exchanges with
  | nil => rfl
  | cons e exchanges => rfl

/-- Requests are numbered from the next one on. -/
theorem nth_succ (n : Network) (i : Nat) : n.nth (i + 1) = n.next.2.nth i := by
  rcases n with ⟨exchanges, otherwise⟩
  cases exchanges with
  | nil => rfl
  | cons e exchanges => rfl

/-- The replies to the first requests. -/
def replies (n : Network) (requests : Nat) : List Reply :=
  (List.range requests).map fun i => (n.nth i).reply

/-- One more reply. -/
theorem replies_succ (n : Network) (requests : Nat) :
    n.replies (requests + 1) = n.replies requests ++ [(n.nth requests).reply] := by
  unfold replies
  rw [List.range_succ, List.map_append]
  rfl

end Network

/-- The chunk of some cells as it is sent. -/
def Pusher.pushOf (p : Pusher) (heap : Heap) (chunk : List Handle) : Push :=
  ⟨p.address, p.realIp, (chunk.map heap.get).map p.signer.message⟩

/-! ## Followers -/

/-- The states of one follower tell those of another. -/
structure Course.Maps {σ τ : Type} (c : Course σ) (d : Course τ) (f : σ → τ) : Prop where
  heap : ∀ s, d.heap (f s) = c.heap s
  network : ∀ s, d.network (f s) = c.network s
  meanwhile : ∀ s, f (c.meanwhile s) = d.meanwhile (f s)
  replied : ∀ heap network push reply s,
    f (c.replied heap network push reply s) = d.replied heap network push reply (f s)

namespace Pusher

section

variable {σ τ : Type} {c : Course σ} {d : Course τ} {f : σ → τ} {p : Pusher} {timeout : Nat}

/-- What becomes of the first of some chunks.  There always are messages for it. -/
theorem sendChunks_cons (p : Pusher) (timeout : Nat) (c : Course σ) (s : σ) (chunk : List Handle)
    (later : List (List Handle)) :
    let exchange := (c.network s).next.1
    let heap := change (c.heap (c.meanwhile s)) exchange.changes
    let after (heap : Heap) :=
      c.replied heap (c.network s).next.2 (p.pushOf (c.heap s) chunk) exchange.reply (c.meanwhile s)
    p.sendChunks timeout c s (chunk :: later) =
      match p.outcome timeout exchange.reply with
      | .error e => (.error e, waiting timeout exchange.reply, after heap)
      | .ok () => p.sendChunks timeout c
          (after (acknowledge heap (chunk.zip (chunk.map (c.heap s).get)))) later := by
  rw [sendChunks]
  simp only [Signer.toMessages_eq]
  rfl

/-- Two followers see one push: its outcome and how long it takes, and at the end their
states are still such that one can be told from the other. -/
theorem sendChunks_map (p : Pusher) (timeout : Nat) (h : c.Maps d f) (s : σ)
    (chunks : List (List Handle)) :
    p.sendChunks timeout d (f s) chunks =
      ((p.sendChunks timeout c s chunks).1, (p.sendChunks timeout c s chunks).2.1,
        f (p.sendChunks timeout c s chunks).2.2) := by
  induction chunks generalizing s with
  | nil => rfl
  | cons chunk later ih =>
    rw [sendChunks_cons, sendChunks_cons]
    simp only [h.heap, h.network, ← h.meanwhile, ← h.replied]
    cases p.outcome timeout (c.network s).next.1.reply with
    | error e => rfl
    | ok u => exact ih _

/-- What is kept whenever a request was under way and has got the next reply, holds at the
end. -/
theorem sendChunks_keeps {P : σ → Prop}
    (hreplied : ∀ s heap push, P s → P (c.replied heap (c.network s).next.2 push
      (c.network s).next.1.reply (c.meanwhile s)))
    {s : σ} (h : P s) (chunks : List (List Handle)) :
    P (p.sendChunks timeout c s chunks).2.2 := by
  induction chunks generalizing s with
  | nil => exact h
  | cons chunk later ih =>
    rw [sendChunks_cons]
    cases p.outcome timeout (c.network s).next.1.reply with
    | error e => exact hreplied s _ _ h
    | ok u => exact ih (hreplied s _ _ h)

end

/-- Requests that were sent before make no difference to a push. -/
theorem maps_sent (before : List Push) :
    Sending.course.Maps Sending.course fun s => { s with sent := before ++ s.sent } where
  heap _ := rfl
  network _ := rfl
  meanwhile _ := rfl
  replied _ _ _ _ _ := by simp only [Sending.course_replied, List.append_assoc]

/-- One chunk of a push.  If it has arrived it is taken away, and the push goes on. -/
theorem pushChunks_cons (p : Pusher) (timeout : Nat) (heap : Heap) (network : Network)
    (chunk : List Handle) (later : List (List Handle)) :
    p.pushChunks timeout heap network (chunk :: later) =
      match p.outcome timeout network.next.1.reply with
      | .error e => ⟨.error e, change heap network.next.1.changes, [p.pushOf heap chunk],
          network.next.2, waiting timeout network.next.1.reply⟩
      | .ok () =>
        let arrived := chunk.zip (chunk.map heap.get)
        let pushed := p.pushChunks timeout
          (acknowledge (change heap network.next.1.changes) arrived) network.next.2 later
        { pushed with sent := p.pushOf heap chunk :: pushed.sent } := by
  rw [pushChunks, sendChunks_cons]
  simp only [Sending.course_heap, Sending.course_network, Sending.course_meanwhile,
    Sending.course_replied]
  cases p.outcome timeout network.next.1.reply with
  | error e => rfl
  | ok u =>
    let next : Sending := ⟨acknowledge (change heap network.next.1.changes)
      (chunk.zip (chunk.map heap.get)), network.next.2, []⟩
    have hmap := p.sendChunks_map timeout (maps_sent [p.pushOf heap chunk]) next later
    exact congrArg (fun r : Outcome Unit × Nat × Sending =>
      (⟨r.1, r.2.2.heap, r.2.2.sent, r.2.2.network, r.2.1⟩ : Pushed)) hmap

end Pusher

end MetricRelay.Agent
