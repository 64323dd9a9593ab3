import MetricRelay.Agent.Address
import MetricRelay.Message.Convert
import MetricRelay.Metric.Cell

/-!
# Pushing metrics

Metrics are sent in chunks of a limited size.  Each metric of a chunk is read once, and when the
chunk has arrived, its counter gives up exactly what was read.  So what was added meanwhile is kept
for the next push, and so is everything in a chunk that did not arrive.

Main definitions:

- `Exchange`: what happens while a request is on its way.
- `Course`: what else goes on beside a push, and what is made of its replies.
- `Pusher.sendChunks`: the chunks of a push, one after the other.
- `Pusher` and `Pusher.push`.

Main results:

- `flatten_chunks`: the chunks hold every item, in order.
-/

namespace MetricRelay.Agent

/-! ## Chunks -/

/-- The items of a list in chunks of some size, the last of which may be smaller. -/
def chunks {α : Type} (size : Nat) : List α → List (List α)
  | [] => []
  | x :: r => (x :: r.take (size - 1)) :: chunks size (r.drop (size - 1))
termination_by l => l.length
decreasing_by simp only [List.length_cons, List.length_drop]; omega

/-- The chunks hold every item, in order. -/
theorem flatten_chunks {α : Type} (size : Nat) (l : List α) : (chunks size l).flatten = l := by
  fun_induction chunks size l with
  | case1 => rfl
  | case2 x r ih => rw [List.flatten_cons, ih, List.cons_append, List.take_append_drop]

/-! ## Requests -/

/-- A request with a list of updates. -/
structure Push where
  address : String
  realIp : Option String
  messages : List Message
  deriving DecidableEq

/-- What becomes of a request. -/
inductive Reply where
  | answered (status : Nat) (body : String)
  | silent
  | unreachable (reason : String)
  deriving DecidableEq

/-- What happens while a request is on its way: others change cells, and at the end there is a
reply. -/
structure Exchange where
  changes : List (Handle × Value)
  reply : Reply

/-- The replies that requests will get: those of a list, and then always the same. -/
structure Network where
  exchanges : List Exchange
  otherwise : Reply

namespace Network

/-- What happens to the next request. -/
def next (n : Network) : Exchange × Network :=
  match n.exchanges with
  | [] => (⟨[], n.otherwise⟩, n)
  | e :: es => (e, { n with exchanges := es })

end Network

/-! ## Pushing -/

/-- How metrics are sent to a server: where to, how they are signed, at most how many at a time,
and in whose name. -/
structure Pusher where
  address : String
  signer : Signer
  batchSize : Nat
  realIp : Option String
  deriving DecidableEq

/-- A number of milliseconds as a text, in the largest unit in which it is at least one. -/
def durationText (ms : Nat) : String :=
  if ms = 0 then "0ns"
  else if ms < 1000 then natText ms ++ "ms"
  else if ms % 1000 = 0 then natText (ms / 1000) ++ "s"
  else
    let places := (natChars (1000 + ms % 1000)).drop 1
    let fraction := (places.reverse.dropWhile (· = '0')).reverse
    natText (ms / 1000) ++ "." ++ String.ofList fraction ++ "s"

/-- How a push goes on for someone who follows it in some state: the cells, the network, what else
is done while a request is under way, and what its reply leaves. -/
structure Course (σ : Type) where
  heap : σ → Heap
  network : σ → Network
  meanwhile : σ → σ
  replied : Heap → Network → Push → Reply → σ → σ

/-- What is known while chunks are sent: the cells, the network, and the requests. -/
structure Sending where
  heap : Heap
  network : Network
  sent : List Push

/-- Nothing else is done, and each request is remembered. -/
def Sending.course : Course Sending where
  heap := heap
  network := network
  meanwhile s := s
  replied heap network push _ s := ⟨heap, network, s.sent ++ [push]⟩

namespace Sending

variable (s : Sending)

@[simp]
theorem course_heap : course.heap s = s.heap := rfl

@[simp]
theorem course_network : course.network s = s.network := rfl

@[simp]
theorem course_meanwhile : course.meanwhile s = s := rfl

/-- Whatever the reply is, only its request is remembered. -/
@[simp]
theorem course_replied (heap : Heap) (network : Network) (push : Push) (reply : Reply) :
    course.replied heap network push reply s = ⟨heap, network, s.sent ++ [push]⟩ := rfl

end Sending

/-- What a push has come to: its outcome, the cells, the requests that were sent, the network
afterwards, and how long it took in milliseconds. -/
structure Pushed where
  result : Outcome Unit
  heap : Heap
  sent : List Push
  network : Network
  duration : Nat

namespace Pusher

/-- The pusher for a server. -/
def make (server : String) (signer : Signer) (batchSize : Nat) (realIp : Option String) :
    Outcome Pusher := do
  return ⟨← updatesAddress server, signer, max batchSize 1, realIp⟩

/-- What a reply means for the push. -/
def outcome (p : Pusher) (timeout : Nat) : Reply → Outcome Unit
  | .answered status body => if status = 200 then .ok () else .error (.unexpectedStatus status body)
  | .silent => .error (.transport ("push timed out after " ++ durationText timeout))
  | .unreachable reason => .error (.transport ("post " ++ p.address ++ ": " ++ reason))

/-- How long a reply takes. -/
def waiting (timeout : Nat) : Reply → Nat
  | .silent => timeout
  | _ => 0

/-- Let others change cells; a change that is refused has no effect. -/
def change (heap : Heap) (changes : List (Handle × Value)) : Heap :=
  changes.foldl (fun heap x => (heap.update x.1 x.2).2) heap

/-- Take away from cells what has arrived. -/
def acknowledge (heap : Heap) (arrived : List (Handle × Metric)) : Heap :=
  arrived.foldl (fun heap x => heap.acknowledge x.1 x.2.value) heap

/-- Send chunks one after the other, up to the first that does not arrive, and say how long it
takes. -/
def sendChunks {σ : Type} (p : Pusher) (timeout : Nat) (course : Course σ) (s : σ) :
    List (List Handle) → Outcome Unit × Nat × σ
  | [] => (.ok (), 0, s)
  | chunk :: later =>
    let read := chunk.map (course.heap s).get
    match p.signer.toMessages read with
    | .error e => (.error e, 0, s)
    | .ok messages =>
      let (exchange, network) := (course.network s).next
      let s := course.meanwhile s
      let heap := change (course.heap s) exchange.changes
      let push : Push := ⟨p.address, p.realIp, messages⟩
      match p.outcome timeout exchange.reply with
      | .error e =>
        (.error e, waiting timeout exchange.reply, course.replied heap network push exchange.reply s)
      | .ok () =>
        let heap := acknowledge heap (chunk.zip read)
        sendChunks p timeout course (course.replied heap network push exchange.reply s) later

/-- Send chunks, and nothing else meanwhile. -/
def pushChunks (p : Pusher) (timeout : Nat) (heap : Heap) (network : Network)
    (chunks : List (List Handle)) : Pushed :=
  let (result, duration, sending) := p.sendChunks timeout Sending.course ⟨heap, network, []⟩ chunks
  ⟨result, sending.heap, sending.sent, sending.network, duration⟩

/-- Send metrics. -/
def push (p : Pusher) (timeout : Nat) (heap : Heap) (network : Network) (hs : List Handle) :
    Pushed :=
  p.pushChunks timeout heap network (chunks p.batchSize hs)

end Pusher

end MetricRelay.Agent
