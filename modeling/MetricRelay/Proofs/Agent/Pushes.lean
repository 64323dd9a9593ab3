import MetricRelay.Proofs.Agent.Delivery
import MetricRelay.Proofs.Agent.Sending

/-!
# Pushes as actions

A push sends one chunk after the other, up to the first that does not arrive.
What it does to the cells of an agent is what some actions do: the network only
has to tell the truth, which is to say that it reports no success that the server
has not answered with.

Main definitions:

- `Pusher.script`: the actions of a push.
- `World.pushes`: the requests of all attempts.

Main results:

- `Pusher.push_eq_run`: the actions leave the cells as the push does, and send its
  requests.
- `Pusher.push_balances`: the accounts of a push.
-/

namespace MetricRelay.Agent

/-- The actions of a push.  While a request is on its way cells change; then the
server takes it in and the pusher learns so, or the pusher gives up. -/
def Pusher.script (p : Pusher) (timeout : Nat) : Nat → Network → List (List Handle) → List Action
  | _, _, [] => []
  | i, network, chunk :: later =>
    let (exchange, network) := network.next
    .send chunk :: exchange.changes.map (fun x => .change x.1 x.2) ++
      match p.outcome timeout exchange.reply with
      | .ok () => .deliver i :: .succeed i :: p.script timeout (i + 1) network later
      | .error _ => [.fail i]

/-- The actions for one chunk, and those for the later ones if it arrives. -/
theorem Pusher.script_cons (p : Pusher) (timeout i : Nat) (network : Network) (chunk : List Handle)
    (later : List (List Handle)) :
    p.script timeout i network (chunk :: later) =
      .send chunk :: network.next.1.changes.map (fun x => .change x.1 x.2) ++
        match p.outcome timeout network.next.1.reply with
        | .ok () => .deliver i :: .succeed i :: p.script timeout (i + 1) network.next.2 later
        | .error _ => [.fail i] :=
  rfl

/-- An attempt as the request that carries it. -/
def Attempt.push (p : Pusher) (a : Attempt) : Push := ⟨p.address, p.realIp, a.messages⟩

namespace World

variable {p : Pusher} {w : World}

/-- The requests of all attempts, in the order in which they were sent. -/
def pushes (p : Pusher) (w : World) : List Push := w.attempts.map (Attempt.push p)

/-- A request stays what it is, whatever becomes of its attempt. -/
theorem pushes_withAttempt {i : Nat} {a : Attempt} (ha : w.attempts[i]? = some a)
    (status : Option Nat) (fate : Fate) :
    (w.withAttempt i { a with status := status, fate := fate }).pushes p = w.pushes p := by
  have hself : w.attempts.set i a = w.attempts := by
    rcases List.getElem?_eq_some_iff.1 ha with ⟨hi, rfl⟩
    exact List.set_getElem_self hi
  show (w.attempts.set i _).map (Attempt.push p) = w.attempts.map (Attempt.push p)
  rw [List.map_set]
  show (w.attempts.map (Attempt.push p)).set i (a.push p) = _
  rw [← List.map_set, hself]

/-- An attempt that is known to have arrived leaves the requests that were sent. -/
theorem pushes_succeed {i : Nat} {a : Attempt} (ha : w.attempts[i]? = some a) :
    (w.succeed i a).pushes p = w.pushes p :=
  pushes_withAttempt ha a.status .acknowledged

/-- An attempt that the server takes in gets a status.  The cells and the requests that were
sent stay what they are. -/
theorem exists_status_of_deliver (p : Pusher) {i : Nat} {a : Attempt}
    (ha : w.attempts[i]? = some a) :
    ∃ status, (w.deliver p i a).attempts[i]? = some { a with status := some status } ∧
      (w.deliver p i a).attempts.length = w.attempts.length ∧
      (w.deliver p i a).heap = w.heap ∧ (w.deliver p i a).pushes p = w.pushes p := by
  rcases List.getElem?_eq_some_iff.1 ha with ⟨hi, -⟩
  exact ⟨_, List.getElem?_set_self hi, List.length_set, rfl, pushes_withAttempt ha _ a.fate⟩

theorem run_cons (p : Pusher) (w : World) (x : Action) (actions : List Action) :
    w.run p (x :: actions) = (w.act p x).run p actions :=
  rfl

theorem run_append (p : Pusher) (w : World) (before after : List Action) :
    w.run p (before ++ after) = (w.run p before).run p after :=
  List.foldl_append

section Attempts

variable {i : Nat} {a : Attempt}

/-- An attempt that has not yet got an answer is taken in. -/
theorem act_deliver (ha : w.attempts[i]? = some a) (hstatus : a.status = none) :
    w.act p (.deliver i) = w.deliver p i a := by
  rw [act, onAttempt_some ha, if_pos (decide_eq_true hstatus)]

/-- An attempt that was answered with success can be seen to have arrived. -/
theorem act_succeed (ha : w.attempts[i]? = some a) (hstatus : a.status = some 200)
    (hfate : a.fate = .pending) : w.act p (.succeed i) = w.succeed i a := by
  rw [act, onAttempt_some ha, if_pos (decide_eq_true ⟨hstatus, hfate⟩)]

/-- An attempt that was not answered with success cannot be seen to have arrived. -/
theorem act_succeed_of_ne (ha : w.attempts[i]? = some a) (hstatus : a.status ≠ some 200) :
    w.act p (.succeed i) = w := by
  rw [act, onAttempt_some ha, decide_eq_false fun h => hstatus h.1]
  rfl

/-- The pusher can give up any attempt whose outcome it does not know. -/
theorem act_fail (ha : w.attempts[i]? = some a) (hfate : a.fate = .pending) :
    w.act p (.fail i) = w.withAttempt i { a with fate := .failed } := by
  rw [act, onAttempt_some ha, if_pos (decide_eq_true hfate)]

end Attempts

/-- Changes only change cells. -/
theorem run_changes (p : Pusher) (w : World) (changes : List (Handle × Value)) :
    w.run p (changes.map fun x => .change x.1 x.2) =
      { w with heap := Pusher.change w.heap changes } := by
  induction changes generalizing w with
  | nil => rfl
  | cons x changes ih => rw [List.map_cons, run_cons, ih]; rfl

/-- Two worlds with the same attempts, except for one. -/
structure DiffersAt (w w' : World) (i : Nat) : Prop where
  length : w'.attempts.length = w.attempts.length
  others : ∀ j, i ≠ j → w'.attempts[j]? = w.attempts[j]?

/-- Two steps that touch one attempt touch one attempt. -/
theorem DiffersAt.trans {w w' w'' : World} {i : Nat} (h : w.DiffersAt w' i)
    (h' : w'.DiffersAt w'' i) : w.DiffersAt w'' i :=
  ⟨h'.length.trans h.length, fun j hj => (h'.others j hj).trans (h.others j hj)⟩

/-- What happens to an attempt that is there and ready touches no other. -/
theorem differsAt_onAttempt {i : Nat} {f : Attempt → World} {g : Attempt → Attempt}
    (hf : ∀ a, (f a).attempts = w.attempts.set i (g a)) (ready : Attempt → Bool) :
    w.DiffersAt (w.onAttempt i ready f) i := by
  rcases w.onAttempt_cases i ready f with ⟨a, -, -, hact⟩ | hact
  · rw [hact]
    constructor
    · rw [hf, List.length_set]
    · intro j hj
      rw [hf, List.getElem?_set_ne hj]
  · rw [hact]
    exact ⟨rfl, fun _ _ => rfl⟩

/-- A request that is taken in touches no other. -/
theorem differsAt_deliver (p : Pusher) (w : World) (i : Nat) :
    w.DiffersAt (w.act p (.deliver i)) i :=
  differsAt_onAttempt (fun _ => rfl) _

/-- A request that is seen to have arrived touches no other. -/
theorem differsAt_succeed (p : Pusher) (w : World) (i : Nat) :
    w.DiffersAt (w.act p (.succeed i)) i :=
  differsAt_onAttempt (fun _ => rfl) _

/-- A request that is given up touches no other. -/
theorem differsAt_fail (p : Pusher) (w : World) (i : Nat) : w.DiffersAt (w.act p (.fail i)) i :=
  differsAt_onAttempt (fun _ => rfl) _

end World

namespace Pusher

section Script

variable {p : Pusher} {timeout : Nat} {w : World} {chunk : List Handle}
  {changes : List (Handle × Value)}

/-- A chunk is sent and cells have changed. -/
def underWay (p : Pusher) (w : World) (chunk : List Handle) (changes : List (Handle × Value)) :
    World :=
  { w with
    heap := change w.heap changes
    attempts := w.attempts ++ [Attempt.reading p w.heap chunk] }

/-- The first actions for a chunk send it and change cells. -/
theorem run_underWay (p : Pusher) (w : World) (chunk : List Handle)
    (changes : List (Handle × Value)) (actions : List Action) :
    w.run p (.send chunk :: changes.map (fun x => .change x.1 x.2) ++ actions) =
      (p.underWay w chunk changes).run p actions := by
  rw [List.cons_append, World.run_cons, World.act_send, World.run_append, World.run_changes]
  rfl

/-- After the first actions for a chunk its attempt stands behind all earlier ones. -/
theorem getElem?_underWay (p : Pusher) (w : World) (chunk : List Handle)
    (changes : List (Handle × Value)) :
    (p.underWay w chunk changes).attempts[w.attempts.length]? =
      some (Attempt.reading p w.heap chunk) :=
  List.getElem?_concat_length

/-- The first actions for a chunk make one attempt. -/
theorem length_underWay (p : Pusher) (w : World) (chunk : List Handle)
    (changes : List (Handle × Value)) :
    (p.underWay w chunk changes).attempts.length = w.attempts.length + 1 :=
  List.length_append

/-- The actions of a push leave earlier attempts alone. -/
theorem getElem?_run_script {i j : Nat} (hi : i < j) (hj : w.attempts.length = j)
    (network : Network) (chunks : List (List Handle)) :
    (w.run p (p.script timeout j network chunks)).attempts[i]? = w.attempts[i]? := by
  induction chunks generalizing w j network with
  | nil => rfl
  | cons chunk later ih =>
    have hlength := p.length_underWay w chunk network.next.1.changes
    have hbefore : (p.underWay w chunk network.next.1.changes).attempts[i]? = w.attempts[i]? :=
      List.getElem?_append_left (by omega)
    have hne : j ≠ i := by omega
    rw [script_cons, run_underWay]
    cases p.outcome timeout network.next.1.reply with
    | error e =>
      have hfail := World.differsAt_fail p (p.underWay w chunk network.next.1.changes) j
      exact (hfail.others i hne).trans hbefore
    | ok u =>
      have hseen := (World.differsAt_deliver p (p.underWay w chunk network.next.1.changes) j).trans
        (World.differsAt_succeed p _ j)
      have hrest := ih (Nat.lt_succ_of_lt hi) (hseen.length.trans (by rw [hlength, hj]))
        network.next.2
      exact hrest.trans ((hseen.others i hne).trans hbefore)

/-- A chunk that has been taken in is acknowledged, and the push goes on. -/
theorem run_accepted {v : World} {i : Nat} {a : Attempt} (ha : v.attempts[i]? = some a)
    (hstatus : a.status = some 200) (hfate : a.fate = .pending)
    (hlength : v.attempts.length = i + 1) (network : Network) (later : List (List Handle)) :
    v.run p (.succeed i :: p.script timeout (i + 1) network later) =
      (v.succeed i a).run p (p.script timeout (v.succeed i a).attempts.length network later) := by
  have hlength' : (v.succeed i a).attempts.length = i + 1 := List.length_set.trans hlength
  rw [World.run_cons, World.act_succeed ha hstatus hfate, hlength']

/-- A chunk that has not been taken in is left pending, for all that a push
does. -/
theorem pending_of_refused {v : World} {i : Nat} {a : Attempt} (ha : v.attempts[i]? = some a)
    (hstatus : a.status ≠ some 200) (hlength : v.attempts.length = i + 1) (network : Network)
    (later : List (List Handle)) :
    a ∈ (v.run p (.succeed i :: p.script timeout (i + 1) network later)).attempts := by
  rw [World.run_cons, World.act_succeed_of_ne ha hstatus]
  have hleft := @getElem?_run_script p timeout v i _ (Nat.lt_succ_self i) hlength network later
  rw [ha] at hleft
  exact List.mem_of_getElem? hleft

/-- The actions of a push leave the cells as the push does and send its requests, if none
is left of which the pusher does not know the outcome. -/
theorem run_script (network : Network) (chunks : List (List Handle))
    (hknown : ∀ a ∈ (w.run p (p.script timeout w.attempts.length network chunks)).attempts,
      a.fate ≠ .pending) :
    (w.run p (p.script timeout w.attempts.length network chunks)).heap =
        (p.pushChunks timeout w.heap network chunks).heap ∧
      (w.run p (p.script timeout w.attempts.length network chunks)).pushes p =
        w.pushes p ++ (p.pushChunks timeout w.heap network chunks).sent := by
  induction chunks generalizing w network with
  | nil => exact ⟨rfl, (List.append_nil _).symm⟩
  | cons chunk later ih =>
    have hsent := getElem?_underWay p w chunk network.next.1.changes
    have hlength := p.length_underWay w chunk network.next.1.changes
    have hheap : (p.underWay w chunk network.next.1.changes).heap =
        change w.heap network.next.1.changes := rfl
    have hpushes : (p.underWay w chunk network.next.1.changes).pushes p =
        w.pushes p ++ [p.pushOf w.heap chunk] := List.map_append
    rw [script_cons, run_underWay] at hknown ⊢
    rw [pushChunks_cons]
    generalize p.underWay w chunk network.next.1.changes = v at hsent hlength hheap hpushes hknown ⊢
    cases houtcome : p.outcome timeout network.next.1.reply with
    | error e =>
      show (v.act p (.fail w.attempts.length)).heap = change w.heap network.next.1.changes ∧
        (v.act p (.fail w.attempts.length)).pushes p = w.pushes p ++ [p.pushOf w.heap chunk]
      rw [World.act_fail hsent rfl, ← hpushes]
      exact ⟨hheap, World.pushes_withAttempt hsent _ _⟩
    | ok u =>
      simp only [houtcome] at hknown
      simp only [World.run_cons _ v, World.act_deliver hsent rfl] at hknown ⊢
      rcases World.exists_status_of_deliver p hsent with
        ⟨status, hanswered, hlength', hheap', hpushes'⟩
      rw [hlength] at hlength'
      rw [hheap] at hheap'
      rw [hpushes] at hpushes'
      generalize v.deliver p w.attempts.length (Attempt.reading p w.heap chunk) = v'
        at hanswered hlength' hheap' hpushes' hknown ⊢
      by_cases haccepted : status = 200
      · rw [run_accepted hanswered (congrArg some haccepted) rfl hlength'] at hknown ⊢
        rcases ih network.next.2 hknown with ⟨hcells, hrequests⟩
        rw [hcells, hrequests, World.pushes_succeed hanswered, hpushes', List.append_assoc]
        let arrived := chunk.zip (chunk.map w.heap.get)
        show (p.pushChunks timeout (acknowledge v'.heap arrived) _ _).heap = _ ∧
          w.pushes p ++ (p.pushOf w.heap chunk ::
            (p.pushChunks timeout (acknowledge v'.heap arrived) _ _).sent) = _
        rw [hheap']
        exact ⟨rfl, rfl⟩
      · have hrefused : some status ≠ some 200 := fun h => haccepted (Option.some.inj h)
        have hpending := @pending_of_refused p timeout v' _ _ hanswered hrefused hlength'
          network.next.2 later
        exact absurd rfl (hknown _ hpending)

/-- The actions of a push send nothing but its chunks. -/
theorem mem_of_send_mem_script {i : Nat} {network : Network} {chunks : List (List Handle)}
    (hsend : .send chunk ∈ p.script timeout i network chunks) : chunk ∈ chunks := by
  induction chunks generalizing i network with
  | nil => cases hsend
  | cons first later ih =>
    rw [script_cons, List.cons_append, List.mem_cons, List.mem_append] at hsend
    rcases hsend with hfirst | hchange | hlater
    · rw [Action.send.inj hfirst]
      exact List.mem_cons_self
    · rcases List.mem_map.1 hchange with ⟨x, -, hx⟩
      cases hx
    · cases houtcome : p.outcome timeout network.next.1.reply with
      | error e =>
        simp only [houtcome] at hlater
        cases List.mem_singleton.1 hlater
      | ok u =>
        simp only [houtcome, List.mem_cons, reduceCtorEq, false_or] at hlater
        exact List.mem_cons_of_mem _ (ih hlater)

/-- What a push of a list of cells does to the cells, its actions do, and they send its
requests, with chunks of the list. -/
theorem push_eq_run (network : Network) (hs : List Handle)
    (hknown : ∀ a ∈ (w.run p (p.script timeout w.attempts.length network
      (chunks p.batchSize hs))).attempts, a.fate ≠ .pending) :
    let actions := p.script timeout w.attempts.length network (chunks p.batchSize hs)
    (p.push timeout w.heap network hs).heap = (w.run p actions).heap ∧
      (w.run p actions).pushes p = w.pushes p ++ (p.push timeout w.heap network hs).sent ∧
      ∀ chunk, .send chunk ∈ actions → chunk ⊆ hs := by
  rcases run_script network _ hknown with ⟨hheap, hsent⟩
  refine ⟨hheap.symm, hsent, fun chunk hsend h hh => ?_⟩
  rw [← flatten_chunks p.batchSize hs]
  exact List.mem_flatten_of_mem (mem_of_send_mem_script hsend) hh

/-- The accounts of a push after which the pusher knows what became of every request.  The
cells are those that the push has left, and the attempts that count are its requests and the
earlier ones, some of which may still be under way. -/
theorem push_balances (network : Network) {hs : List Handle} {h : Handle} {name : String}
    (hsound : w.Sound p hs)
    (hknown : ∀ a ∈ (w.run p (p.script timeout w.attempts.length network
      (chunks p.batchSize hs))).attempts, a.fate ≠ .pending)
    (hexact : w.Exact p (p.script timeout w.attempts.length network (chunks p.batchSize hs)))
    (hcounter : w.heap.IsCounter h) (hkey : (w.heap.get h).key = ⟨.counter, name⟩)
    (honly : ∀ h' ∈ hs, (w.heap.get h').key = ⟨.counter, name⟩ → h' = h) :
    let actions := p.script timeout w.attempts.length network (chunks p.batchSize hs)
    let pushed := p.push timeout w.heap network hs
    let w' := w.run p actions
    w'.pushes p = w.pushes p ++ pushed.sent ∧
      pushed.heap.amount h + w'.acknowledged h =
        w.heap.amount h + w.acknowledged h + (actions.map (·.increment h)).sum ∧
      w'.total name + w.applied h = w.total name + w'.applied h := by
  rcases push_eq_run network hs hknown with ⟨hheap, hsent, hchunks⟩
  rcases World.run_balances hsound hchunks hexact hcounter hkey honly with ⟨-, hbalances⟩
  intro actions pushed w'
  refine ⟨hsent, ?_, hbalances.server⟩
  rw [hheap]
  exact hbalances.agent

end Script

end Pusher

end MetricRelay.Agent
