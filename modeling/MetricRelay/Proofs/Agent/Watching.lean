import MetricRelay.Agent.Run
import MetricRelay.Proofs.Agent.Sending
import MetricRelay.Proofs.Schedule

/-!
# Watching an agent

An agent collects and pushes in two periods that have nothing to do with each other.
Here a run of both tasks is written down: when metrics were collected, when they were
pushed, and what became of each request.  Where both are due at one moment, they may come
in either order, and metrics may be collected while a request of the push is under way.

Main definitions:

- `Order`: which task comes first at a moment.
- `Watched`: an agent with what was written down.
- `Watched.turn` and `Watched.after`: what both tasks do at one moment, and up to one.
- `Watched.Follows`: each request has got the reply of its number.

Main results:

- `Watched.agent_turn` and `Watched.agent_after_starting`: if metrics are collected first,
  this is what an agent does.
- `Watched.Follows.after`: the requests of any run.
-/

namespace MetricRelay.AgentRun

open Agent (Course Machine Network Push Pusher Reply Sending)

/-- Which task comes first.  If metrics are pushed first, they are collected while the
request with some number is under way, or at the end if there is no such request. -/
inductive Order where
  | collecting
  | pushing (request : Nat)
  deriving DecidableEq

/-- What an agent does at the first moments, with what the machine shows at each of them.
It is to stop from some moment on. -/
def after (cancelled : Nat) (shown : Nat → Machine) (r : AgentRun) : Nat → AgentRun
  | 0 => r
  | n + 1 =>
    ({ after cancelled shown r n with state.shown := shown n } : AgentRun).run
      (decide (cancelled ≤ n)) n

/-- An agent, the moments at which it has collected and pushed metrics, and its requests
with what became of them. -/
structure Watched where
  state : AgentState
  collecting : Cycle
  pushing : Cycle
  collected : List Nat
  pushed : List Nat
  exchanged : List (Push × Reply)

namespace Watched

/-- The agent that is watched. -/
def agent (w : Watched) : AgentRun := ⟨w.state, some w.collecting, w.pushing⟩

/-- An agent that begins to collect and to push in two periods. -/
def starting (state : AgentState) (collectPeriod pushPeriod : Nat) (h : 0 < collectPeriod)
    (h' : 0 < pushPeriod) : Watched :=
  ⟨state, .starting 0 collectPeriod h .startAnew, .starting pushPeriod pushPeriod h' .startAnew,
    [], [], []⟩

/-- Refresh all metrics, and write down when. -/
def collectTask (now : Nat) (s : AgentState × List Nat) : Nat × (AgentState × List Nat) :=
  (0, s.1.collect, s.2 ++ [now])

/-- The collecting task has its turn. -/
def collect (stop : Bool) (now : Nat) (w : Watched) : Watched :=
  let (c, state, collected) := w.collecting.run (collectTask now) stop now (w.state, w.collected)
  { w with collecting := c, state := state, collected := collected }

/-- After the reply to a request. -/
def replied (w : Watched) (heap : Heap) (network : Network) (push : Push) (reply : Reply) :
    Watched :=
  { w with
    state.heap := heap
    state.network := network
    state.sent := w.state.sent ++ [push]
    exchanged := w.exchanged ++ [(push, reply)] }

/-- A push that is watched.  Something happens while each request is under way, which may
depend on its number. -/
def course (amid : Nat → Watched → Watched) : Course (Nat × Watched) where
  heap s := s.2.state.heap
  network s := s.2.state.network
  meanwhile s := (s.1 + 1, amid s.1 s.2)
  replied heap network push reply s := (s.1, s.2.replied heap network push reply)

/-- Send chunks one after the other, up to the first that does not arrive, and say how long
it takes. -/
def pushChunks (amid : Nat → Watched → Watched) (w : Watched) (chunks : List (List Handle)) :
    Nat × Watched :=
  let (_, duration, _, w) := w.state.pusher.sendChunks w.state.timeout (course amid) (0, w) chunks
  (duration, w)

/-- What happens while a request is under way. -/
def amid (order : Order) (stop : Bool) (now i : Nat) (w : Watched) : Watched :=
  if order = .pushing i then w.collect stop now else w

/-- Push all metrics, and say how long it takes. -/
def pushAll (order : Order) (stop : Bool) (now : Nat) (w : Watched) : Nat × Watched :=
  pushChunks (amid order stop now) w
    (Agent.chunks w.state.pusher.batchSize w.state.collector.handles)

/-- Push all metrics, and write down when. -/
def pushTask (order : Order) (stop : Bool) (now : Nat) (s : Watched × List Nat) :
    Nat × (Watched × List Nat) :=
  let (duration, w) := s.1.pushAll order stop now
  (duration, w, s.2 ++ [now])

/-- The pushing task has its turn. -/
def push (order : Order) (stop : Bool) (now : Nat) (w : Watched) : Watched :=
  let (c, w, pushed) := w.pushing.run (pushTask order stop now) stop now (w, w.pushed)
  { w with pushing := c, pushed := pushed }

/-- Both tasks have their turns.  They are to stop from some moment on. -/
def turn (cancelled : Nat) (shown : Machine) (order : Order) (now : Nat) (w : Watched) : Watched :=
  let stop := decide (cancelled ≤ now)
  let w := { w with state.shown := shown }
  match order with
  | .collecting => (w.collect stop now).push .collecting stop now
  | .pushing request => (w.push (.pushing request) stop now).collect stop now

/-- What both tasks do at the first moments, with what the machine shows at each of them
and which task comes first. -/
def after (cancelled : Nat) (shown : Nat → Machine) (order : Nat → Order) (w : Watched) :
    Nat → Watched
  | 0 => w
  | n + 1 => (after cancelled shown order w n).turn cancelled (shown n) (order n) n

/-! ## The agent that is watched -/

/-- The collecting task does what that of the agent does. -/
theorem run_collect (stop : Bool) (now : Nat) (w : Watched) :
    w.collecting.run (fun a => (0, a.collect)) stop now w.state =
      ((w.collect stop now).collecting, (w.collect stop now).state) :=
  Cycle.run_map (collectTask now) (fun a => (0, a.collect)) Prod.fst (fun _ => rfl) stop now
    w.collecting (w.state, w.collected)

/-- Nothing happens while a request is under way if metrics were collected before. -/
theorem amid_collecting (stop : Bool) (now : Nat) :
    amid .collecting stop now = fun _ w => w := by
  funext i w
  exact if_neg nofun

/-- A push of an agent, as far as its two tasks are concerned. -/
def quiet : Course (AgentState × Cycle) where
  heap s := s.1.heap
  network s := s.1.network
  meanwhile s := s
  replied heap network push _ s :=
    ({ s.1 with heap := heap, network := network, sent := s.1.sent ++ [push] }, s.2)

/-- If nothing happens while requests are under way, the agent is all that matters. -/
theorem maps_course : (course fun _ w => w).Maps quiet fun s => (s.2.state, s.2.collecting) where
  heap _ := rfl
  network _ := rfl
  meanwhile _ := rfl
  replied _ _ _ _ _ := rfl

/-- An agent has what its pusher has, and it remembers earlier requests. -/
theorem maps_sending (a : AgentState) (c : Cycle) : Sending.course.Maps quiet fun s =>
    ({ a with heap := s.heap, network := s.network, sent := a.sent ++ s.sent }, c) where
  heap _ := rfl
  network _ := rfl
  meanwhile _ := rfl
  replied _ _ _ _ _ := by simp only [quiet, Sending.course_replied, List.append_assoc]

/-- If nothing happens while requests are under way, chunks are sent as by a pusher. -/
theorem pushChunks_eq (w : Watched) (chunks : List (List Handle)) :
    let pushed := w.state.pusher.pushChunks w.state.timeout w.state.heap w.state.network chunks
    (pushChunks (fun _ w => w) w chunks).1 = pushed.duration ∧
      (pushChunks (fun _ w => w) w chunks).2.collecting = w.collecting ∧
      (pushChunks (fun _ w => w) w chunks).2.state =
        { w.state with
          heap := pushed.heap
          network := pushed.network
          sent := w.state.sent ++ pushed.sent } := by
  have hwatched := w.state.pusher.sendChunks_map w.state.timeout maps_course (0, w) chunks
  have hpusher := w.state.pusher.sendChunks_map w.state.timeout
    (maps_sending w.state w.collecting) ⟨w.state.heap, w.state.network, []⟩ chunks
  simp only [List.append_nil] at hpusher
  have hsame := Prod.ext_iff.1 (hwatched.symm.trans hpusher)
  have hlater := Prod.ext_iff.1 hsame.2
  have hends := Prod.ext_iff.1 hlater.2
  exact ⟨hlater.1, hends.2, hends.1⟩

/-- Where metrics are collected first, the pushing task does what that of the agent
does. -/
theorem run_push (stop : Bool) (now : Nat) (w : Watched) :
    w.pushing.run AgentState.push stop now w.state =
      ((w.push .collecting stop now).pushing, (w.push .collecting stop now).state) := by
  refine Cycle.run_map (pushTask .collecting stop now) AgentState.push (fun s => s.1.state)
    (fun s => ?_) stop now w.pushing (w, w.pushed)
  rcases pushChunks_eq s.1
    (Agent.chunks s.1.state.pusher.batchSize s.1.state.collector.handles) with
    ⟨hduration, -, hstate⟩
  unfold pushTask pushAll
  rw [amid_collecting]
  exact (Prod.ext hduration hstate).symm

/-- Where metrics are collected first, a push does not concern the collecting task. -/
theorem collecting_push (stop : Bool) (now : Nat) (w : Watched) :
    (w.push .collecting stop now).collecting = w.collecting := by
  have htask (s : Watched × List Nat) (hs : s.1.collecting = w.collecting) :
      (pushTask .collecting stop now s).2.1.collecting = w.collecting := by
    rw [← hs]
    show (pushChunks (amid .collecting stop now) s.1 _).2.collecting = s.1.collecting
    rw [amid_collecting]
    exact (pushChunks_eq s.1 _).2.1
  exact Cycle.run_keeps htask stop now w.pushing rfl

/-- If metrics are collected first, both tasks do what those of the agent do. -/
theorem agent_turn (cancelled : Nat) (shown : Machine) (now : Nat) (w : Watched) :
    (w.turn cancelled shown .collecting now).agent =
      ({ w.agent with state.shown := shown } : AgentRun).run (decide (cancelled ≤ now)) now := by
  let stop := decide (cancelled ≤ now)
  let seen : Watched := { w with state.shown := shown }
  have hcollect := run_collect stop now seen
  have hpush := run_push stop now (seen.collect stop now)
  have hcollecting := collecting_push stop now (seen.collect stop now)
  have hpushing : (seen.collect stop now).pushing = seen.pushing := rfl
  rw [hpushing] at hpush
  show ((seen.collect stop now).push .collecting stop now).agent = seen.agent.run stop now
  simp only [AgentRun.run, agent, hcollect, hpush, hcollecting]

/-- If metrics are collected first at every moment, the agent runs as it does unwatched. -/
theorem agent_after (cancelled : Nat) (shown : Nat → Machine) (w : Watched) (n : Nat) :
    (w.after cancelled shown (fun _ => .collecting) n).agent = w.agent.after cancelled shown n := by
  induction n with
  | zero => rfl
  | succ n ih =>
    rw [Watched.after, agent_turn, ih]
    rfl

/-- The agent goes as the watched one from its start, on which the two agree. -/
theorem agent_after_starting (cancelled : Nat) (shown : Nat → Machine) (state : AgentState)
    {collectPeriod pushPeriod : Nat} (h : 0 < collectPeriod) (h' : 0 < pushPeriod) (n : Nat) :
    ((starting state _ _ h h').after cancelled shown (fun _ => .collecting) n).agent =
      (AgentRun.starting state _ _ h h').after cancelled shown n :=
  agent_after cancelled shown (starting state _ _ h h') n

/-! ## Replies -/

/-- Each request has got the reply that a network had for it at first, and the replies that
are left are those to later requests. -/
structure Follows (network : Network) (w : Watched) : Prop where
  replies : w.exchanged.map Prod.snd = network.replies w.exchanged.length
  next : ∀ i, w.state.network.nth i = network.nth (w.exchanged.length + i)

section

variable {network : Network} {w : Watched}

/-- The collecting task has nothing to do with the network. -/
theorem network_collect (stop : Bool) (now : Nat) (w : Watched) :
    (w.collect stop now).state.network = w.state.network :=
  Cycle.run_keeps (P := fun s : AgentState × List Nat => s.1.network = w.state.network)
    (fun _ hs => hs) stop now w.collecting rfl

/-- What happens while a request is under way does not change the network. -/
theorem network_amid (order : Order) (stop : Bool) (now i : Nat) (w : Watched) :
    (amid order stop now i w).state.network = w.state.network := by
  unfold amid
  split
  · exact network_collect stop now w
  · rfl

/-- What the collecting task does makes no difference to the replies. -/
theorem Follows.collect (h : w.Follows network) (stop : Bool) (now : Nat) :
    (w.collect stop now).Follows network :=
  ⟨h.replies, fun i => by rw [network_collect]; exact h.next i⟩

/-- What happens while a request is under way makes no difference to the replies. -/
theorem Follows.amid (h : w.Follows network) (order : Order) (stop : Bool) (now i : Nat) :
    (Watched.amid order stop now i w).Follows network := by
  unfold Watched.amid
  split
  · exact h.collect stop now
  · exact h

/-- The next request gets the next reply. -/
theorem Follows.replied (h : w.Follows network) (heap : Heap) (push : Push) :
    (w.replied heap w.state.network.next.2 push w.state.network.next.1.reply).Follows network := by
  have hlength : (w.exchanged ++ [(push, w.state.network.next.1.reply)]).length =
      w.exchanged.length + 1 := List.length_append
  have hreply : w.state.network.next.1 = network.nth w.exchanged.length := by
    rw [← Network.nth_zero, h.next 0, Nat.add_zero]
  constructor
  · show (w.exchanged ++ [(push, _)]).map Prod.snd =
      network.replies (w.exchanged ++ [(push, _)]).length
    rw [hlength, Network.replies_succ, List.map_append, h.replies, hreply]
    rfl
  · intro i
    show w.state.network.next.2.nth i = network.nth ((w.exchanged ++ [(push, _)]).length + i)
    rw [hlength, ← Network.nth_succ, h.next, Nat.add_assoc, Nat.add_comm 1]

/-- The requests of a turn of the pushing task get the next replies. -/
theorem Follows.push (h : w.Follows network) (order : Order) (stop : Bool) (now : Nat) :
    (w.push order stop now).Follows network := by
  have htask (s : Watched × List Nat) (hs : s.1.Follows network) :
      (pushTask order stop now s).2.1.Follows network := by
    refine Pusher.sendChunks_keeps (P := fun s : Nat × Watched => s.2.Follows network)
      (fun s heap push hs => ?_) hs _
    -- The reply is the next one of the network as it was before something happened.
    have hreplied := (hs.amid order stop now s.1).replied heap push
    rw [network_amid] at hreplied
    exact hreplied
  have hkept := Cycle.run_keeps htask stop now w.pushing (s := (w, w.pushed)) h
  exact ⟨hkept.replies, hkept.next⟩

/-- Up to any moment the requests have got the first replies of the network. -/
theorem Follows.after (h : w.Follows network) (cancelled : Nat) (shown : Nat → Machine)
    (order : Nat → Order) (n : Nat) : (w.after cancelled shown order n).Follows network := by
  induction n with
  | zero => exact h
  | succ n ih =>
    have hseen : ({ Watched.after cancelled shown order w n with
        state.shown := shown n } : Watched).Follows network := ⟨ih.replies, ih.next⟩
    unfold Watched.after Watched.turn
    cases order n with
    | collecting => exact (hseen.collect _ n).push _ _ n
    | pushing request => exact (hseen.push _ _ n).collect _ n

/-- Before anything was sent all replies are left. -/
theorem follows_starting (state : AgentState) {collectPeriod pushPeriod : Nat}
    (h : 0 < collectPeriod) (h' : 0 < pushPeriod) :
    (starting state _ _ h h').Follows state.network :=
  ⟨rfl, fun i => by rw [starting, List.length_nil, Nat.zero_add]⟩

end

end Watched

end MetricRelay.AgentRun
