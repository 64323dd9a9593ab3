import Mathlib.Algebra.BigOperators.Group.List.Basic
import MetricRelay.Agent.Pusher
import MetricRelay.Proofs.Http.Server
import MetricRelay.Proofs.Http.Totals

/-!
# Delivery

An agent counts, reads chunks of its cells and sends them; a server takes a
request in at some later moment or never; and the pusher learns that it was taken
in, or gives up.  All of this may happen in any order.  Still nothing is lost
and nothing is taken away twice: what a counter shows and what was acknowledged
come to what was counted, and the server has exactly what reached it.

Main definitions:

- `Attempt`: a chunk that was sent, and what has become of it.
- `World` and `Action`: an agent, its requests and a server, and what may happen.
- `World.Exact`: nothing stops at the ends of the range of totals.

Main results:

- `Acts.amount_eq` and `Acts.total_eq`: what one action does to a counter, at
  the agent and at the server.
- `World.accounts`: both balances after any actions.
-/

namespace MetricRelay.Agent

open Http (Request Target)

/-! ## The system -/

/-- What the pusher knows of a request. -/
inductive Fate where
  | pending
  | acknowledged
  | failed
  deriving DecidableEq

/-- A chunk that was sent: its cells, what they showed when they were read, the
messages that carry it, the status of the answer once the server has given one,
and what the pusher knows of it. -/
structure Attempt where
  cells : List Handle
  read : List Metric
  messages : List Message
  status : Option Nat
  fate : Fate

/-- The cells of an agent, the chunks that it has sent, and a server with its
host. -/
structure World where
  heap : Heap
  attempts : List Attempt
  server : Server
  host : Host

/-- What may happen: an update of a cell, a chunk that is read and sent, a
request that reaches the server, and the two outcomes that the pusher may see. -/
inductive Action where
  | change (h : Handle) (u : Value)
  | send (chunk : List Handle)
  | deliver (i : Nat)
  | succeed (i : Nat)
  | fail (i : Nat)
  deriving DecidableEq

/-- The request that carries messages, as it reaches the server. -/
def Pusher.request (p : Pusher) (messages : List Message) : Request :=
  ⟨"POST", "/updates",
    ("Content-Type", "application/json") :: (p.realIp.map fun ip => ("X-Real-IP", ip)).toList,
    Message.body messages⟩

namespace World

/-- The world with another state of an attempt. -/
def withAttempt (w : World) (i : Nat) (a : Attempt) : World :=
  { w with attempts := w.attempts.set i a }

/-- The world in which an attempt has got some answer. -/
def answered (w : World) (i : Nat) (a : Attempt) (answer : Http.Response × Server × Host) : World :=
  { w.withAttempt i { a with status := some answer.1.status } with
    server := answer.2.1
    host := answer.2.2 }

/-- The server takes a request in. -/
def deliver (p : Pusher) (w : World) (i : Nat) (a : Attempt) : World :=
  w.answered i a (w.server.answer w.host (p.request a.messages))

/-- The pusher takes away what has arrived. -/
def succeed (w : World) (i : Nat) (a : Attempt) : World :=
  { w.withAttempt i { a with fate := .acknowledged } with
    heap := Pusher.acknowledge w.heap (a.cells.zip a.read) }

/-- What happens to an attempt if it is there and ready for it. -/
def onAttempt (w : World) (i : Nat) (ready : Attempt → Bool) (f : Attempt → World) : World :=
  match w.attempts[i]? with
  | some a => if ready a then f a else w
  | none => w

/-- What an action does.  A request reaches the server at most once, its outcome
is seen at most once, and success is seen only if the server has answered so; an
action that is out of place does nothing. -/
def act (p : Pusher) (w : World) : Action → World
  | .change h u => { w with heap := Pusher.change w.heap [(h, u)] }
  | .send chunk =>
    let read := chunk.map w.heap.get
    match p.signer.toMessages read with
    | .error _ => w
    | .ok messages => { w with attempts := w.attempts ++ [⟨chunk, read, messages, none, .pending⟩] }
  | .deliver i => w.onAttempt i (fun a => a.status = none) (w.deliver p i)
  | .succeed i =>
    w.onAttempt i (fun a => a.status = some 200 ∧ a.fate = .pending) (w.succeed i)
  | .fail i =>
    w.onAttempt i (fun a => a.fate = .pending) fun a => w.withAttempt i { a with fate := .failed }

/-- What actions do one after the other. -/
def run (p : Pusher) (w : World) (actions : List Action) : World := actions.foldl (act p) w

end World

/-! ## Accounts -/

/-- What an update adds to a counter. -/
def Action.increment (h : Handle) : Action → Int
  | .change h' u => if h' = h then u.amount else 0
  | _ => 0

/-- What metrics that were read from cells carry for one of these. -/
def carried (h : Handle) (sent : List (Handle × Metric)) : Int :=
  (sent.map fun x => if x.1 = h then x.2.value.amount else 0).sum

namespace Attempt

/-- What an attempt carries for a cell. -/
def sent (a : Attempt) (h : Handle) : Int := carried h (a.cells.zip a.read)

/-- Whether the server has taken an attempt in. -/
def isApplied (a : Attempt) : Bool := a.status = some 200

/-- Whether the pusher knows that an attempt was taken in. -/
def isAcknowledged (a : Attempt) : Bool := a.fate = .acknowledged

/-- What an attempt carries for a cell, if it is of some sort. -/
def counted (sort : Attempt → Bool) (h : Handle) (a : Attempt) : Int :=
  if sort a then a.sent h else 0

/-- An attempt of the sort counts for what it carries. -/
theorem counted_of_sort {sort : Attempt → Bool} {a : Attempt} (ha : sort a = true) (h : Handle) :
    a.counted sort h = a.sent h :=
  if_pos ha

/-- An attempt of another sort counts for nothing. -/
theorem counted_of_not_sort {sort : Attempt → Bool} {a : Attempt} (ha : sort a = false)
    (h : Handle) : a.counted sort h = 0 := by
  rw [counted, ha]
  rfl

end Attempt

namespace World

/-- What was sent for a cell in attempts of some sort. -/
def sum (w : World) (sort : Attempt → Bool) (h : Handle) : Int :=
  (w.attempts.map (Attempt.counted sort h)).sum

/-- What was sent for a cell and acknowledged. -/
def acknowledged (w : World) (h : Handle) : Int := w.sum Attempt.isAcknowledged h

/-- What was sent for a cell and taken in. -/
def applied (w : World) (h : Handle) : Int := w.sum Attempt.isApplied h

end World

namespace World

/-- What the server has counted under a name. -/
def total (w : World) (name : String) : Int := (w.server.board w.host).amount ⟨.counter, name⟩

/-! ## Exact actions -/

/-- Taking away what has arrived does not bring a cell to an end of the range. -/
def TakesAwayExactly (heap : Heap) : List (Handle × Metric) → Prop
  | [] => True
  | x :: arrived =>
    (heap.get x.1).value.SubtractsExactly x.2.value ∧
      TakesAwayExactly (heap.acknowledge x.1 x.2.value) arrived

/-- No addition and no subtraction of an action stops at an end of the range. -/
def ActsExactly (p : Pusher) (w : World) : Action → Prop
  | .change h u => (w.heap.get h).value.AddsExactly u
  | .deliver i => ∀ a, w.attempts[i]? = some a → a.status = none →
    (w.server.answer w.host (p.request a.messages)).1.status = 200 →
      (w.server.board w.host).AddsAllExactly (p.request a.messages).updates
  | .succeed i => ∀ a, w.attempts[i]? = some a → a.status = some 200 → a.fate = .pending →
    TakesAwayExactly w.heap (a.cells.zip a.read)
  | .send _ | .fail _ => True

/-- None of a list of actions does so. -/
def Exact (p : Pusher) (w : World) : List Action → Prop
  | [] => True
  | x :: actions => w.ActsExactly p x ∧ (w.act p x).Exact p actions

end World

/-! ## The invariant -/

/-- An attempt carries what was read from cells of a list, and its messages say
so. -/
structure Attempt.IsRead (p : Pusher) (hs : List Handle) (heap : Heap) (a : Attempt) : Prop where
  messages : a.messages = a.read.map p.signer.message
  cells : List.Forall₂ (fun h m => h ∈ hs ∧ m.key = (heap.get h).key) a.cells a.read

/-- Every attempt was read from cells of a list, and the server serves. -/
structure World.Sound (p : Pusher) (hs : List Handle) (w : World) : Prop where
  attempts : ∀ a ∈ w.attempts, a.IsRead p hs w.heap
  server : w.server.Serves w.host

/-- Cells stay where they are, and each keeps its key. -/
structure SameKeys (heap heap' : Heap) : Prop where
  size : heap'.size = heap.size
  key : ∀ h, (heap'.get h).key = (heap.get h).key

theorem SameKeys.refl (heap : Heap) : SameKeys heap heap := ⟨rfl, fun _ => rfl⟩

/-- What keeps cells and keys twice keeps them. -/
theorem SameKeys.trans {heap heap' heap'' : Heap} (h : SameKeys heap heap')
    (h' : SameKeys heap' heap'') : SameKeys heap heap'' :=
  ⟨h'.size.trans h.size, fun x => (h'.key x).trans (h.key x)⟩

/-- To take away what has arrived changes values only. -/
theorem sameKeys_acknowledge (heap : Heap) (arrived : List (Handle × Metric)) :
    SameKeys heap (Pusher.acknowledge heap arrived) := by
  induction arrived generalizing heap with
  | nil => exact SameKeys.refl heap
  | cons x arrived ih =>
    have hone : SameKeys heap (heap.acknowledge x.1 x.2.value) :=
      ⟨heap.size_acknowledge x.1 x.2.value, fun h => heap.key_get_acknowledge x.1 h x.2.value⟩
    exact hone.trans (ih _)

/-- What has arrived is taken away from each cell that carried it. -/
theorem amount_acknowledge {heap : Heap} {h : Handle} (hcounter : heap.IsCounter h)
    {arrived : List (Handle × Metric)} (hexact : World.TakesAwayExactly heap arrived) :
    (Pusher.acknowledge heap arrived).amount h = heap.amount h - carried h arrived := by
  induction arrived generalizing heap with
  | nil => exact (Int.sub_zero _).symm
  | cons x arrived ih =>
    rcases hexact with ⟨hone, hrest⟩
    have htake := Heap.amount_acknowledge hcounter hone
    have hcounter' : (heap.acknowledge x.1 x.2.value).IsCounter h :=
      hcounter.congr (heap.size_acknowledge _ _) (heap.key_get_acknowledge _ _ _)
    have htail := ih hcounter' hrest
    have hsum : carried h (x :: arrived) =
        (if x.1 = h then x.2.value.amount else 0) + carried h arrived := by
      unfold carried
      rw [List.map_cons, List.sum_cons]
    show (Pusher.acknowledge (heap.acknowledge x.1 x.2.value) arrived).amount h = _
    rw [htail, htake, hsum]
    omega

/-! ## One action -/

/-- The attempt that reads a chunk. -/
def Attempt.reading (p : Pusher) (heap : Heap) (chunk : List Handle) : Attempt :=
  ⟨chunk, chunk.map heap.get, (chunk.map heap.get).map p.signer.message, none, .pending⟩

/-- All that an action can do. -/
inductive Acts (p : Pusher) (w : World) : Action → World → Prop where
  | change (h : Handle) (u : Value) : Acts p w (.change h u) { w with heap := (w.heap.update h u).2 }
  | send (chunk : List Handle) : Acts p w (.send chunk)
      { w with attempts := w.attempts ++ [Attempt.reading p w.heap chunk] }
  | deliver {i : Nat} {a : Attempt} (ha : w.attempts[i]? = some a) (hstatus : a.status = none) :
      Acts p w (.deliver i) (w.deliver p i a)
  | succeed {i : Nat} {a : Attempt} (ha : w.attempts[i]? = some a) (hstatus : a.status = some 200)
      (hfate : a.fate = .pending) : Acts p w (.succeed i) (w.succeed i a)
  | fail {i : Nat} {a : Attempt} (ha : w.attempts[i]? = some a) (hfate : a.fate = .pending) :
      Acts p w (.fail i) (w.withAttempt i { a with fate := .failed })
  | idle {x : Action} (hx : ∀ h, x.increment h = 0) : Acts p w x w

/-- A chunk can always be sent, since there are messages for all metrics. -/
theorem World.act_send (p : Pusher) (w : World) (chunk : List Handle) :
    w.act p (.send chunk) =
      { w with attempts := w.attempts ++ [Attempt.reading p w.heap chunk] } := by
  simp only [World.act, Signer.toMessages_eq]
  rfl

/-- What happens to an attempt that is there. -/
theorem World.onAttempt_some {w : World} {i : Nat} {a : Attempt} (ha : w.attempts[i]? = some a)
    (ready : Attempt → Bool) (f : Attempt → World) :
    w.onAttempt i ready f = if ready a then f a else w := by
  unfold World.onAttempt
  rw [ha]

/-- Something happens to an attempt that is there and ready for it, or nothing does. -/
theorem World.onAttempt_cases (w : World) (i : Nat) (ready : Attempt → Bool) (f : Attempt → World) :
    (∃ a, w.attempts[i]? = some a ∧ ready a = true ∧ w.onAttempt i ready f = f a) ∨
      w.onAttempt i ready f = w := by
  cases ha : w.attempts[i]? with
  | none =>
    unfold World.onAttempt
    rw [ha]
    exact .inr rfl
  | some a =>
    rw [World.onAttempt_some ha]
    by_cases hready : ready a = true
    · exact .inl ⟨a, rfl, hready, if_pos hready⟩
    · exact .inr (if_neg hready)

/-- Each action does one of the things that are listed. -/
theorem acts_act (p : Pusher) (w : World) (x : Action) : Acts p w x (w.act p x) := by
  cases x with
  | change h u => exact .change h u
  | send chunk =>
    rw [World.act_send]
    exact .send chunk
  | deliver i =>
    rcases w.onAttempt_cases i (fun a => a.status = none) (w.deliver p i) with
      ⟨a, ha, hready, hact⟩ | hact
    · rw [World.act, hact]
      exact .deliver ha (of_decide_eq_true hready)
    · rw [World.act, hact]
      exact .idle fun _ => rfl
  | succeed i =>
    rcases w.onAttempt_cases i (fun a => a.status = some 200 ∧ a.fate = .pending) (w.succeed i) with
      ⟨a, ha, hready, hact⟩ | hact
    · rcases of_decide_eq_true hready with ⟨hstatus, hfate⟩
      rw [World.act, hact]
      exact .succeed ha hstatus hfate
    · rw [World.act, hact]
      exact .idle fun _ => rfl
  | fail i =>
    rcases w.onAttempt_cases i (fun a => a.fate = .pending)
      (fun a => w.withAttempt i { a with fate := .failed }) with ⟨a, ha, hready, hact⟩ | hact
    · rw [World.act, hact]
      exact .fail ha (of_decide_eq_true hready)
    · rw [World.act, hact]
      exact .idle fun _ => rfl

/-! ### The invariant is kept -/

section Sound

variable {p : Pusher} {hs : List Handle} {w w' : World} {x : Action}

/-- An attempt was read from cells whose values have changed since. -/
theorem Attempt.IsRead.congr {heap heap' : Heap} {a : Attempt} (h : a.IsRead p hs heap)
    (hkeys : SameKeys heap heap') : a.IsRead p hs heap' :=
  ⟨h.messages, h.cells.imp fun x _ hx => ⟨hx.1, hx.2.trans (hkeys.key x).symm⟩⟩

/-- A chunk of a list is read from its cells. -/
theorem Attempt.isRead_reading {heap : Heap} {chunk : List Handle} (hchunk : chunk ⊆ hs) :
    (Attempt.reading p heap chunk).IsRead p hs heap := by
  refine ⟨rfl, ?_⟩
  show List.Forall₂ _ chunk (chunk.map heap.get)
  rw [List.forall₂_map_right_iff, List.forall₂_same]
  exact fun h hh => ⟨hchunk hh, rfl⟩

/-- No action moves a cell or changes its key. -/
theorem Acts.sameKeys (hact : Acts p w x w') : SameKeys w.heap w'.heap := by
  cases hact with
  | change h u => exact ⟨w.heap.size_update h u, fun h' => w.heap.key_get_update h h' u⟩
  | send chunk => exact SameKeys.refl w.heap
  | deliver ha hstatus => exact SameKeys.refl w.heap
  | succeed ha hstatus hfate => exact sameKeys_acknowledge w.heap _
  | fail ha hfate => exact SameKeys.refl w.heap
  | idle hx => exact SameKeys.refl w.heap

/-- An attempt carries the same whatever becomes of it. -/
theorem Attempt.IsRead.becomes {heap : Heap} {a : Attempt} (h : a.IsRead p hs heap)
    (status : Option Nat) (fate : Fate) :
    ({ a with status := status, fate := fate } : Attempt).IsRead p hs heap :=
  ⟨h.messages, h.cells⟩

/-- Where one attempt is replaced by one that was read, all were. -/
theorem World.Sound.mem_set (hsound : w.Sound p hs) {i : Nat} {b c : Attempt}
    (hb : b.IsRead p hs w.heap) (hc : c ∈ w.attempts.set i b) : c.IsRead p hs w.heap := by
  rcases List.mem_or_eq_of_mem_set hc with hc | rfl
  · exact hsound.attempts c hc
  · exact hb

/-- Each attempt that there is was read. -/
theorem World.Sound.isRead (hsound : w.Sound p hs) {i : Nat} {a : Attempt}
    (ha : w.attempts[i]? = some a) : a.IsRead p hs w.heap :=
  hsound.attempts a (List.mem_of_getElem? ha)

/-- An action keeps the invariant, as long as only chunks of the list are sent. -/
theorem Acts.sound (hact : Acts p w x w') (hsound : w.Sound p hs)
    (hchunk : ∀ chunk, x = .send chunk → chunk ⊆ hs) : w'.Sound p hs := by
  have hkeys := hact.sameKeys
  cases hact with
  | change h u => exact ⟨fun a ha => (hsound.attempts a ha).congr hkeys, hsound.server⟩
  | send chunk =>
    constructor
    · intro a ha
      rcases List.mem_append.1 ha with ha | ha
      · exact hsound.attempts a ha
      · rw [List.mem_singleton.1 ha]
        exact Attempt.isRead_reading (hchunk chunk rfl)
    · exact hsound.server
  | @deliver i a ha hstatus =>
    have hleaves := Server.leaves_answer hsound.server (p.request a.messages)
    unfold World.deliver at hkeys ⊢
    generalize w.server.answer w.host (p.request a.messages) = answer at hleaves hkeys ⊢
    have hread := (hsound.isRead ha).becomes (some answer.1.status) a.fate
    exact ⟨fun c hc => hsound.mem_set hread hc, hleaves.serves⟩
  | @succeed i a ha hstatus hfate =>
    have hread := (hsound.isRead ha).becomes a.status .acknowledged
    exact ⟨fun c hc => (hsound.mem_set hread hc).congr hkeys, hsound.server⟩
  | @fail i a ha hfate =>
    have hread := (hsound.isRead ha).becomes a.status .failed
    exact ⟨fun c hc => hsound.mem_set hread hc, hsound.server⟩
  | idle hx => exact hsound

end Sound

/-! ### The balance at the agent -/

section Balance

variable {p : Pusher} {hs : List Handle} {w w' : World} {x : Action} {h : Handle}

/-- Another state of an attempt makes the difference of what it is counted
for. -/
theorem World.sum_set (sort : Attempt → Bool) (h : Handle) {i : Nat} {a b : Attempt}
    (ha : w.attempts[i]? = some a) (hset : w'.attempts = w.attempts.set i b) :
    w'.sum sort h = w.sum sort h + (b.counted sort h - a.counted sort h) := by
  rcases List.getElem?_eq_some_iff.1 ha with ⟨hi, hget⟩
  have hlength : i < (w.attempts.map (Attempt.counted sort h)).length := by
    rw [List.length_map]
    exact hi
  unfold World.sum
  rw [hset, List.map_set, List.sum_set', dif_pos hlength, List.getElem_map, hget]
  omega

/-- A state in which an attempt is counted as before makes none. -/
theorem World.sum_set_of_eq {sort : Attempt → Bool} {i : Nat} {a b : Attempt}
    (ha : w.attempts[i]? = some a) (hset : w'.attempts = w.attempts.set i b)
    (hb : b.counted sort h = a.counted sort h) : w'.sum sort h = w.sum sort h := by
  rw [World.sum_set sort h ha hset, hb]
  omega

/-- Where an attempt was not counted, its new state is. -/
theorem World.sum_set_of_not_sort {sort : Attempt → Bool} {i : Nat} {a b : Attempt}
    (ha : w.attempts[i]? = some a) (hset : w'.attempts = w.attempts.set i b)
    (hsort : sort a = false) : w'.sum sort h = w.sum sort h + b.counted sort h := by
  rw [World.sum_set sort h ha hset, Attempt.counted_of_not_sort hsort]
  omega

/-- A fresh attempt counts for nothing. -/
theorem World.sum_append (w : World) {sort : Attempt → Bool} (h : Handle) {a : Attempt}
    (ha : sort a = false) :
    ({ w with attempts := w.attempts ++ [a] } : World).sum sort h = w.sum sort h := by
  unfold World.sum
  rw [List.map_append, List.sum_append, List.map_singleton, List.sum_singleton,
    Attempt.counted_of_not_sort ha, Int.add_zero]

/-- Nothing was taken away for an attempt whose outcome is not known. -/
theorem Attempt.isAcknowledged_of_pending {a : Attempt} (hfate : a.fate = .pending) :
    a.isAcknowledged = false := by
  rw [Attempt.isAcknowledged, hfate]
  rfl

/-- What an agent shows and what was acknowledged grow by what is counted. -/
theorem Acts.amount_eq (hact : Acts p w x w') (hcounter : w.heap.IsCounter h)
    (hexact : w.ActsExactly p x) :
    w'.heap.amount h + w'.acknowledged h =
      w.heap.amount h + w.acknowledged h + x.increment h := by
  cases hact with
  | change h' u =>
    have hamount := Heap.amount_update hcounter hexact
    show (w.heap.update h' u).2.amount h + w.acknowledged h =
      w.heap.amount h + w.acknowledged h + if h' = h then u.amount else 0
    omega
  | send chunk =>
    have hsum : ({ w with attempts := w.attempts ++ [Attempt.reading p w.heap chunk] } :
        World).acknowledged h = w.acknowledged h :=
      w.sum_append h rfl
    rw [hsum]
    exact (Int.add_zero _).symm
  | @deliver i a ha hstatus =>
    have hsum : (w.deliver p i a).acknowledged h = w.acknowledged h :=
      World.sum_set_of_eq ha rfl rfl
    rw [hsum]
    exact (Int.add_zero _).symm
  | @succeed i a ha hstatus hfate =>
    have hamount := amount_acknowledge hcounter (hexact a ha hstatus hfate)
    have hpending := Attempt.isAcknowledged_of_pending hfate
    have hsum : (w.succeed i a).acknowledged h = w.acknowledged h + a.sent h :=
      World.sum_set_of_not_sort (b := { a with fate := .acknowledged }) ha rfl hpending
    show (Pusher.acknowledge w.heap (a.cells.zip a.read)).amount h +
      (w.succeed i a).acknowledged h = w.heap.amount h + w.acknowledged h + 0
    rw [hamount, hsum, Attempt.sent]
    omega
  | @fail i a ha hfate =>
    have hpending := Attempt.isAcknowledged_of_pending hfate
    have hsum : (w.withAttempt i { a with fate := .failed }).acknowledged h =
        w.acknowledged h + 0 :=
      World.sum_set_of_not_sort (b := { a with fate := .failed }) ha rfl hpending
    rw [hsum]
    show w.heap.amount h + (w.acknowledged h + 0) = w.heap.amount h + w.acknowledged h + 0
    omega
  | idle hx => rw [hx, Int.add_zero]

end Balance

/-! ### The balance at the server -/

section Server

variable {p : Pusher} {hs : List Handle} {w w' : World} {x : Action} {h : Handle} {name : String}

/-- A request with messages brings what is received of them. -/
theorem Pusher.updates_request (p : Pusher) (messages : List Message) :
    (p.request messages).updates = messages.map Message.received := by
  have hmethod : (p.request messages).method = "POST" := rfl
  have htarget : Target.ofPath? (p.request messages).path = some .updateBatch := by
    have hpath : (p.request messages).path = (⟨"POST", "/updates", [], []⟩ : Request).path := rfl
    rw [hpath]
    decide
  rw [Request.updates, if_pos hmethod, htarget]
  show Http.held (Message.decodeBatch (Message.body messages)) = _
  rw [Message.decodeBatch_body]
  rfl

/-- What metrics count under a name is what they carry for the only cell of that
name. -/
theorem carried_eq {heap : Heap} (hkey : (heap.get h).key = ⟨.counter, name⟩)
    (honly : ∀ h' ∈ hs, (heap.get h').key = ⟨.counter, name⟩ → h' = h)
    {cells : List Handle} {read : List Metric}
    (hread : List.Forall₂ (fun h m => h ∈ hs ∧ m.key = (heap.get h).key) cells read) :
    (read.map fun m => if m.key = ⟨.counter, name⟩ then m.value.amount else 0).sum =
      carried h (cells.zip read) := by
  induction hread with
  | nil => rfl
  | @cons h' m cells read hm _ ih =>
    rcases hm with ⟨hmem, hmkey⟩
    have hiff : m.key = ⟨.counter, name⟩ ↔ h' = h := by
      rw [hmkey]
      constructor
      · exact honly h' hmem
      · rintro rfl
        exact hkey
    unfold carried at ih ⊢
    rw [List.map_cons, List.sum_cons, List.zip_cons_cons, List.map_cons, List.sum_cons, ih]
    simp only [hiff]

/-- What the server answers to an attempt says whether it has counted it. -/
theorem World.total_answered {i : Nat} {a : Attempt} {answer : Http.Response × Server × Host}
    (hleaves : w.server.Leaves answer.2
      ((w.server.board w.host).after (p.request a.messages) answer.1.status))
    (hread : a.IsRead p hs w.heap) (hkey : (w.heap.get h).key = ⟨.counter, name⟩)
    (honly : ∀ h' ∈ hs, (w.heap.get h').key = ⟨.counter, name⟩ → h' = h)
    (hadds : answer.1.status = 200 →
      (w.server.board w.host).AddsAllExactly (a.messages.map Message.received)) :
    (w.answered i a answer).total name =
      w.total name + if answer.1.status = 200 then a.sent h else 0 := by
  show (answer.2.1.board answer.2.2).amount ⟨.counter, name⟩ = _
  rw [hleaves.board, Board.after]
  by_cases haccepted : answer.1.status = 200
  · rw [hread.messages] at hadds
    rw [if_pos haccepted, if_pos haccepted, p.updates_request, hread.messages,
      Board.amount_takeAll_received p.signer (hadds haccepted) name,
      carried_eq hkey honly hread.cells]
    rfl
  · rw [if_neg haccepted, if_neg haccepted, Int.add_zero]
    rfl

/-- An attempt is taken in by an answer that says so. -/
theorem World.applied_answered {i : Nat} {a : Attempt} (ha : w.attempts[i]? = some a)
    (hstatus : a.status = none) (answer : Http.Response × Server × Host) :
    (w.answered i a answer).applied h =
      w.applied h + if answer.1.status = 200 then a.sent h else 0 := by
  have hopen : a.isApplied = false := by
    rw [Attempt.isApplied, hstatus]
    rfl
  have hsum : (w.answered i a answer).applied h = w.applied h +
      ({ a with status := some answer.1.status } : Attempt).counted Attempt.isApplied h :=
    World.sum_set_of_not_sort ha rfl hopen
  rw [hsum]
  by_cases haccepted : answer.1.status = 200
  · rw [if_pos haccepted, Attempt.counted_of_sort (decide_eq_true (congrArg some haccepted))]
    rfl
  · rw [if_neg haccepted, Attempt.counted_of_not_sort]
    exact decide_eq_false fun heq => haccepted (Option.some.inj heq)

/-- What the server shows under the name of a counter grows by what is taken in
for it. -/
theorem Acts.total_eq (hact : Acts p w x w') (hsound : w.Sound p hs)
    (hkey : (w.heap.get h).key = ⟨.counter, name⟩)
    (honly : ∀ h' ∈ hs, (w.heap.get h').key = ⟨.counter, name⟩ → h' = h)
    (hexact : w.ActsExactly p x) :
    w'.total name + w.applied h = w.total name + w'.applied h := by
  cases hact with
  | change h' u => rfl
  | send chunk =>
    have hsum : ({ w with attempts := w.attempts ++ [Attempt.reading p w.heap chunk] } :
        World).applied h = w.applied h :=
      w.sum_append h rfl
    rw [hsum]
    rfl
  | @deliver i a ha hstatus =>
    simp only [World.ActsExactly, p.updates_request] at hexact
    have hadds := hexact a ha hstatus
    have hleaves := Server.leaves_answer hsound.server (p.request a.messages)
    unfold World.deliver
    generalize w.server.answer w.host (p.request a.messages) = answer at hadds hleaves ⊢
    rw [World.total_answered hleaves (hsound.isRead ha) hkey honly hadds,
      World.applied_answered ha hstatus]
    omega
  | @succeed i a ha hstatus hfate =>
    have hsum : (w.succeed i a).applied h = w.applied h := World.sum_set_of_eq ha rfl rfl
    rw [hsum]
    rfl
  | @fail i a ha hfate =>
    have hsum : (w.withAttempt i { a with fate := .failed }).applied h = w.applied h :=
      World.sum_set_of_eq ha rfl rfl
    rw [hsum]
    rfl
  | idle hx => rfl

end Server

/-! ## Any actions -/

namespace World

section Runs

variable {p : Pusher} {hs : List Handle} {w : World} {actions : List Action} {h : Handle}
  {name : String}

/-- The balances of a counter between two worlds. -/
structure Balances (w w' : World) (h : Handle) (name : String) (counted : Int) : Prop where
  agent : w'.heap.amount h + w'.acknowledged h = w.heap.amount h + w.acknowledged h + counted
  server : w'.total name + w.applied h = w.total name + w'.applied h

/-- Both balances after any actions, by induction on these: each action changes both sides
by the same. -/
theorem run_balances (hsound : w.Sound p hs)
    (hchunks : ∀ chunk, Action.send chunk ∈ actions → chunk ⊆ hs) (hexact : w.Exact p actions)
    (hcounter : w.heap.IsCounter h) (hkey : (w.heap.get h).key = ⟨.counter, name⟩)
    (honly : ∀ h' ∈ hs, (w.heap.get h').key = ⟨.counter, name⟩ → h' = h) :
    SameKeys w.heap (w.run p actions).heap ∧
      w.Balances (w.run p actions) h name (actions.map (·.increment h)).sum := by
  induction actions generalizing w with
  | nil => exact ⟨SameKeys.refl w.heap, (Int.add_zero _).symm, rfl⟩
  | cons x actions ih =>
    rcases hexact with ⟨hone, hrest⟩
    have hact := acts_act p w x
    have hkeys := hact.sameKeys
    have hagent := hact.amount_eq hcounter hone
    have hserver := hact.total_eq hsound hkey honly hone
    have hsound' := hact.sound hsound fun chunk hx => hchunks chunk (hx ▸ List.mem_cons_self)
    obtain ⟨hkeys', hbalances⟩ := ih hsound'
      (fun chunk hmem => hchunks chunk (List.mem_cons_of_mem _ hmem)) hrest
      (hcounter.congr hkeys.size (hkeys.key h)) ((hkeys.key h).trans hkey)
      (fun h' hmem hkey' => honly h' hmem ((hkeys.key h').symm.trans hkey'))
    refine ⟨hkeys.trans hkeys', ?_, ?_⟩
    · have htail := hbalances.agent
      rw [List.map_cons, List.sum_cons]
      show ((w.act p x).run p actions).heap.amount h + ((w.act p x).run p actions).acknowledged h =
        _
      omega
    · have htail := hbalances.server
      show ((w.act p x).run p actions).total name + w.applied h =
        w.total name + ((w.act p x).run p actions).applied h
      omega

/-- An agent and a server start without requests under way, and the server
without the counters of a list of cells.  Chunks of the list are sent, cells are
updated, requests reach the server and outcomes are seen in any order.  As long
as no total stops at an end of the range, a counter that is the only cell of its
key in the list shows what it was and what was counted but for what was
acknowledged, and the server has what was taken in for it. -/
theorem accounts (hnew : w.attempts = []) (hserver : w.server.Serves w.host)
    (hunknown : ∀ h ∈ hs, (w.heap.get h).kind = .counter →
      w.server.board w.host (w.heap.get h).key = none)
    (hchunks : ∀ chunk, Action.send chunk ∈ actions → chunk ⊆ hs) (hexact : w.Exact p actions)
    (hmem : h ∈ hs) {n : Count} (hcell : w.heap.get? h = some ⟨name, .total n⟩)
    (honly : ∀ h' ∈ hs, (w.heap.get h').key = ⟨.counter, name⟩ → h' = h) :
    ∃ n', (w.run p actions).heap.get? h = some ⟨name, .total n'⟩ ∧
      n'.val + (w.run p actions).acknowledged h =
        n.val + (actions.map (·.increment h)).sum ∧
      (w.run p actions).total name = (w.run p actions).applied h := by
  have hcounter := Heap.isCounter_of_get? hcell
  have hget := Heap.get_eq_of_get? hcell
  have hkey : (w.heap.get h).key = ⟨.counter, name⟩ := by
    rw [hget]
    rfl
  have hsound : w.Sound p hs := by
    constructor
    · intro a ha
      rw [hnew] at ha
      cases ha
    · exact hserver
  have hnone (sort : Attempt → Bool) : w.sum sort h = 0 := by
    rw [sum, hnew]
    rfl
  have hzero : w.total name = 0 := by
    have hboard := hunknown h hmem hcounter.kind
    rw [hkey] at hboard
    rw [total, Board.amount, hboard]
    rfl
  rcases run_balances hsound hchunks hexact hcounter hkey honly with ⟨hkeys, hbalances⟩
  rcases (hcounter.congr hkeys.size (hkeys.key h)).exists_get? with ⟨n', hcell', hamount⟩
  have hname : ((w.run p actions).heap.get h).name = name :=
    congrArg Key.name ((hkeys.key h).trans hkey)
  have hstart : w.heap.amount h = n.val := by
    rw [Heap.amount, hget]
    rfl
  have hagent := hbalances.agent
  have hshown := hbalances.server
  have hacknowledged : w.acknowledged h = 0 := hnone _
  have happlied : w.applied h = 0 := hnone _
  rw [hname] at hcell'
  refine ⟨n', hcell', ?_, ?_⟩
  · omega
  · omega

end Runs

/-- An agent with one counter, and a server that knows nothing. -/
def single : World :=
  ⟨⟨[⟨"polls", .total (.clamp 3)⟩]⟩, [],
    Server.fresh Config.Server.default .disabled none, .ofDisk (.withDirectory [])⟩

/-- A pusher without a key. -/
def pusher : Pusher := ⟨"http://localhost:8080/updates", .disabled, 2, none⟩

/-- A chunk with the same counter twice, and an update while it is under way. -/
def twice : List Action :=
  [.send [⟨0⟩, ⟨0⟩], .change ⟨0⟩ (.total (.clamp 5)), .deliver 0, .succeed 0]

/-- No total stops at an end of the range in this run. -/
theorem exact_twice : single.Exact pusher twice := by
  refine ⟨trivial, ?_, ?_, ?_, trivial⟩
  · show (Count.add (.clamp 3) (.clamp 5)).val = (Count.clamp 3).val + (Count.clamp 5).val
    decide
  · intro a ha _ _
    have hmessages : a.messages.map Message.received =
        [Signer.disabled.message ⟨"polls", .total (.clamp 3)⟩,
          Signer.disabled.message ⟨"polls", .total (.clamp 3)⟩] := by
      cases ha
      rfl
    rw [pusher.updates_request, hmessages]
    refine ⟨?_, ?_, trivial⟩
    · intro _ v hv
      cases hv
    · intro _ v hv d hd
      cases hv
      cases hd
      show (Count.add (.clamp 3) (.clamp 3)).val = (Count.clamp 3).val + (Count.clamp 3).val
      decide
  · intro a ha _ _
    have hread : a.cells.zip a.read =
        [(⟨0⟩, ⟨"polls", .total (.clamp 3)⟩), (⟨0⟩, ⟨"polls", .total (.clamp 3)⟩)] := by
      cases ha
      rfl
    rw [hread]
    refine ⟨?_, ?_, trivial⟩
    · show (Count.sub (.clamp 8) (.clamp 3)).val = (Count.clamp 8).val - (Count.clamp 3).val
      decide
    · show (Count.sub (.clamp 5) (.clamp 3)).val = (Count.clamp 5).val - (Count.clamp 3).val
      decide

/-- What is read twice is taken away twice, and the server has it twice. -/
theorem accounts_of_repeated_handle :
    ∃ n', (single.run pusher twice).heap.get? ⟨0⟩ = some ⟨"polls", .total n'⟩ ∧
      n'.val + (single.run pusher twice).acknowledged ⟨0⟩ =
        (Count.clamp 3).val + (twice.map (·.increment ⟨0⟩)).sum ∧
      (single.run pusher twice).total "polls" = (single.run pusher twice).applied ⟨0⟩ :=
  accounts rfl (Server.serves_fresh (by decide) _ _ _) (fun (h : Handle) (_ : h ∈ [⟨0⟩, ⟨0⟩]) _ => rfl)
    (by simp [twice]) exact_twice (by decide) rfl (by simp)

end World

end MetricRelay.Agent
