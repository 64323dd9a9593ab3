import MetricRelay.Proofs.Agent.Chunking
import MetricRelay.Proofs.Agent.Collecting
import MetricRelay.Proofs.Agent.Watching
import MetricRelay.Proofs.Config.Agent

/-!
# Polls that are counted once

An agent counts how often it has collected metrics.  The count is added to in one period
and pushed in another, some pushes fail, and at a moment at which both tasks are due they
come in any order.  Still each poll is counted once: it was delivered in a request that
has arrived, or the counter still holds it.

Main definitions:

- `Push.deltas` and `Watched.delivered`: what requests carry, and what has arrived.
- `Network.IsInstant`: requests that take no time.
- `Watched.Sound`: what is known of an agent between two steps.
- `Watched.CountsOnce`: the polls and pushes of a run.

Main results:

- `Watched.Sound.collect` and `Watched.Sound.sendChunks`: what the two tasks keep.
- `Watched.Kept.turn`: what one moment keeps.
- `Watched.counts_once` and `counts_polls`: every run of an agent, watched or not.
-/

namespace MetricRelay

namespace Agent

/-! ## Requests -/

/-- Whether a request has arrived. -/
def Reply.isAccepted : Reply → Bool
  | .answered status _ => status = 200
  | .silent | .unreachable _ => false

/-- A push goes on exactly with the replies that accept its request. -/
theorem Pusher.outcome_cases (p : Pusher) (timeout : Nat) (r : Reply) :
    (r.isAccepted = true ∧ p.outcome timeout r = .ok ()) ∨
      (r.isAccepted = false ∧ ∃ e, p.outcome timeout r = .error e) := by
  cases r with
  | answered status body =>
    by_cases hstatus : status = 200
    · exact .inl ⟨decide_eq_true hstatus, if_pos hstatus⟩
    · exact .inr ⟨decide_eq_false hstatus, _, if_neg hstatus⟩
  | silent => exact .inr ⟨rfl, _, rfl⟩
  | unreachable reason => exact .inr ⟨rfl, _, rfl⟩

/-- A network on which every request is replied to at once, and others leave the cells
alone meanwhile. -/
structure Network.IsInstant (n : Network) : Prop where
  exchanges : ∀ e ∈ n.exchanges, e.changes = [] ∧ e.reply ≠ .silent
  otherwise : n.otherwise ≠ .silent

/-- After a request the network still replies at once. -/
theorem Network.IsInstant.next {n : Network} (h : n.IsInstant) :
    n.next.1.changes = [] ∧ n.next.1.reply ≠ .silent ∧ n.next.2.IsInstant := by
  rcases n with ⟨exchanges, otherwise⟩
  cases exchanges with
  | nil => exact ⟨rfl, h.otherwise, h⟩
  | cons e exchanges =>
    rcases h.exchanges e List.mem_cons_self with ⟨hchanges, hreply⟩
    exact ⟨hchanges, hreply, fun e he => h.exchanges e (List.mem_cons_of_mem _ he), h.otherwise⟩

/-- Only silence takes time. -/
theorem Pusher.waiting_eq_zero {r : Reply} (h : r ≠ .silent) (timeout : Nat) :
    Pusher.waiting timeout r = 0 := by
  cases r with
  | answered status body => rfl
  | silent => exact absurd rfl h
  | unreachable reason => rfl

/-- What a request adds to the total of some name: the sum of its deltas for it. -/
def Push.deltas (name : String) (push : Push) : Int :=
  (push.messages.map fun m => if m.id = name then (m.delta.map Count.val).getD 0 else 0).sum

/-! ## Chunks that were read -/

/-- The delta of a message is what its metric has counted; a gauge has counted nothing. -/
theorem delta_message (s : Signer) (m : Metric) :
    ((s.message m).delta.map Count.val).getD 0 = m.value.amount := by
  cases hv : m.value <;> simp [Signer.message, hv, Message.ofValue, Message.query, Value.amount]

section

variable {heap later : Heap} {poll : Handle} {chunk : List Handle} {name : String}

/-- What a chunk carries for a cell, one handle after the other. -/
theorem carried_map (heap : Heap) (poll : Handle) (chunk : List Handle) :
    carried poll (chunk.zip (chunk.map heap.get)) =
      (chunk.map fun x => if x = poll then heap.amount x else 0).sum := by
  unfold carried
  rw [← List.map_prod_left_eq_zip, List.map_map]
  rfl

/-- A chunk carries what one of its cells shows, once. -/
theorem carried_read (hnodup : chunk.Nodup) :
    carried poll (chunk.zip (chunk.map heap.get)) =
      if poll ∈ chunk then heap.amount poll else 0 := by
  rw [carried_map, List.sum_map_ite_eq chunk heap.amount (fun _ => 0) poll, hnodup.count]
  split <;> simp

/-- The only counter of a chunk is all that its request adds to a total. -/
theorem deltas_read (s : Signer) (address : String) (realIp : Option String)
    (hkey : (heap.get poll).key = ⟨.counter, name⟩)
    (hgauges : ∀ x ∈ chunk, x ≠ poll → (heap.get x).kind = .gauge) :
    Push.deltas name ⟨address, realIp, (chunk.map heap.get).map s.message⟩ =
      carried poll (chunk.zip (chunk.map heap.get)) := by
  unfold Push.deltas
  rw [carried_map, List.map_map, List.map_map]
  refine congrArg List.sum (List.map_congr_left fun x hx => ?_)
  show (if (s.message (heap.get x)).id = name then _ else 0) =
    if x = poll then heap.amount x else 0
  rw [Signer.message_id, delta_message]
  unfold Heap.amount
  by_cases heq : x = poll
  · have hname : (heap.get poll).name = name := congrArg Key.name hkey
    rw [heq, if_pos hname, if_pos rfl]
  · have hzero : (heap.get x).value.amount = 0 := by
      have hkind : (heap.get x).value.kind = .gauge := hgauges x hx heq
      cases hv : (heap.get x).value with
      | total n =>
        rw [hv] at hkind
        cases hkind
      | reading y => rfl
    rw [hzero, if_neg heq]
    split <;> rfl

/-- What was read from a cell can be taken away from it later, if the cell is a gauge or
has not gone down meanwhile. -/
theorem subtractsExactly_read {x : Handle} (hgauge : x ≠ poll → (later.get x).kind = .gauge)
    (hcounter : later.IsCounter poll)
    (hroom : x = poll → 0 ≤ heap.amount poll ∧ heap.amount poll ≤ later.amount poll) :
    (later.get x).value.SubtractsExactly (heap.get x).value := by
  by_cases heq : x = poll
  · subst heq
    rcases hroom rfl with ⟨hnonneg, hle⟩
    rcases Value.exists_of_kind_counter hcounter.kind with ⟨n, hn⟩
    unfold Heap.amount at hnonneg hle
    rw [hn] at hle ⊢
    cases hvalue : (heap.get x).value with
    | reading y => trivial
    | total d =>
      rw [hvalue] at hnonneg hle
      exact Value.subtractsExactly_of_le hnonneg hle
  · have hkind : (later.get x).value.kind = .gauge := hgauge heq
    cases hv : (later.get x).value with
    | total n =>
      rw [hv] at hkind
      cases hkind
    | reading y => trivial

/-- What was read from cells can be taken away from them later, if the only counter has
not gone down meanwhile. -/
theorem takesAwayExactly_read (hnodup : chunk.Nodup)
    (hgauges : ∀ x ∈ chunk, x ≠ poll → (later.get x).kind = .gauge)
    (hcounter : later.IsCounter poll)
    (hroom : poll ∈ chunk → 0 ≤ heap.amount poll ∧ heap.amount poll ≤ later.amount poll) :
    World.TakesAwayExactly later (chunk.zip (chunk.map heap.get)) := by
  induction chunk generalizing later with
  | nil => trivial
  | cons x chunk ih =>
    rcases List.nodup_cons.1 hnodup with ⟨hx, hrest⟩
    let sent := (heap.get x).value
    have hkind (y : Handle) : ((later.acknowledge x sent).get y).kind = (later.get y).kind :=
      congrArg Key.kind (later.key_get_acknowledge x y sent)
    have hcounter' : (later.acknowledge x sent).IsCounter poll :=
      hcounter.congr (later.size_acknowledge x sent) (later.key_get_acknowledge x poll sent)
    refine ⟨?_, ih hrest (fun y hy hne => ?_) hcounter' fun hmem => ?_⟩
    · exact subtractsExactly_read (hgauges x List.mem_cons_self) hcounter fun heq =>
        hroom (heq ▸ List.mem_cons_self)
    · rw [hkind]
      exact hgauges y (List.mem_cons_of_mem _ hy) hne
    · have hne : x ≠ poll := fun heq => hx (heq ▸ hmem)
      have hamount : (later.acknowledge x sent).amount poll = later.amount poll :=
        congrArg (·.value.amount) (later.get_set_of_ne hne _)
      rw [hamount]
      exact hroom (List.mem_cons_of_mem _ hmem)

end

end Agent

namespace AgentRun.Watched

open Agent (Collector Machine Network Push Pusher Reply)

/-! ## What is known between two steps -/

/-- The deltas for polls in all requests that have arrived. -/
def delivered (w : Watched) : Int :=
  (w.exchanged.map fun x => if x.2.isAccepted then x.1.deltas Collector.pollName else 0).sum

/-- The collector counts polls, and each poll was delivered or is still in the counter. -/
structure Sound (poll : Handle) (w : Watched) : Prop where
  counts : w.state.collector.Counts w.state.heap poll
  delivered : 0 ≤ w.delivered
  amount : 0 ≤ w.state.heap.amount poll
  balance : w.delivered + w.state.heap.amount poll = w.collected.length
  network : w.state.network.IsInstant
  sent : w.exchanged.map Prod.fst = w.state.sent
  figures : w.state.shown.HasFigures

/-- Cells were added, and polls were counted. -/
structure Grows (poll : Handle) (w w' : Watched) : Prop where
  heap : w.state.heap.Grows w'.state.heap
  amount : w.state.heap.amount poll ≤ w'.state.heap.amount poll
  handles : w.state.collector.handles ⊆ w'.state.collector.handles

theorem Grows.refl (poll : Handle) (w : Watched) : w.Grows poll w :=
  ⟨.refl _, Int.le_refl _, List.Subset.refl _⟩

section

variable {poll : Handle} {w w' : Watched} {collectPeriod cancelled n : Nat}

/-- When the tasks have their turns does not matter to what is known. -/
theorem Sound.withCycles (h : w.Sound poll) (collecting pushing : Cycle) (pushed : List Nat) :
    ({ w with collecting := collecting, pushing := pushing, pushed := pushed } : Watched).Sound
      poll :=
  ⟨h.counts, h.delivered, h.amount, h.balance, h.network, h.sent, h.figures⟩

/-! ## The collecting task -/

/-- The collecting task has yet to have its turn at a moment, or has had it. -/
def IsTimely (collectPeriod cancelled n : Nat) (c : Cycle) (collected : List Nat) : Prop :=
  c.Timely 0 collectPeriod cancelled n collected ∨
    c.Timely 0 collectPeriod cancelled (n + 1) collected

/-- The cells after metrics were collected. -/
theorem Sound.collected (h : w.Sound poll) (hroom : w.state.heap.amount poll + 1 ≤ Count.greatest)
    (c : Cycle) (now : Nat) :
    let w' : Watched := { w with
      collecting := c, state := w.state.collect, collected := w.collected ++ [now] }
    w'.Sound poll ∧ w.Grows poll w' := by
  rcases h.counts.updateAll h.figures hroom with ⟨hcounts, hamount, hheap, hhandles⟩
  have hnonneg := h.amount
  have hbalance := h.balance
  have hlength : (w.collected ++ [now]).length = w.collected.length + 1 := by simp
  refine ⟨⟨hcounts, h.delivered, ?_, ?_, h.network, h.sent, h.figures⟩, hheap, ?_, hhandles⟩
  · show 0 ≤ (w.state.collector.updateAll w.state.shown w.state.heap).2.amount poll
    omega
  · show w.delivered + (w.state.collector.updateAll w.state.shown w.state.heap).2.amount poll =
      ((w.collected ++ [now]).length : Int)
    rw [hlength]
    omega
  · show w.state.heap.amount poll ≤
      (w.state.collector.updateAll w.state.shown w.state.heap).2.amount poll
    omega

/-- After the turn of the collecting task all that was known still is. -/
theorem Sound.collect (h : w.Sound poll)
    (htimely : IsTimely collectPeriod cancelled n w.collecting w.collected)
    (hroom : (Cycle.ticksBefore 0 collectPeriod cancelled : Int) ≤ Count.greatest) :
    let w' := w.collect (decide (cancelled ≤ n)) n
    w'.Sound poll ∧ w.Grows poll w' ∧
      w'.collecting.Timely 0 collectPeriod cancelled (n + 1) w'.collected := by
  unfold Watched.collect
  simp only
  rcases htimely with htimely | htimely
  · have hinstant : (collectTask n (w.state, w.collected)).1 = 0 := rfl
    rcases htimely.run_cases hinstant with ⟨c, hc, hrun⟩ | ⟨c, hc, hrun⟩
    · rw [hrun]
      have hlength := hc.length_le
      have hlast : (w.collected ++ [n]).length = w.collected.length + 1 := by simp
      have hdelivered := h.delivered
      have hbalance := h.balance
      rcases h.collected (by omega) c n with ⟨hsound, hgrows⟩
      exact ⟨hsound, hgrows, hc⟩
    · rw [hrun]
      exact ⟨h.withCycles c _ _, ⟨.refl _, Int.le_refl _, List.Subset.refl _⟩, hc⟩
  · rw [htimely.run_again]
    exact ⟨h, .refl poll w, htimely⟩

/-! ## The pushing task -/

/-- A reply keeps what is known if what has arrived is what was taken away. -/
theorem Sound.replied (h : w.Sound poll) {heap : Heap} {network : Network}
    (hnetwork : network.IsInstant) {push : Push} {reply : Reply} {carried : Int}
    (hkeys : Agent.SameKeys w.state.heap heap)
    (hamount : heap.amount poll = w.state.heap.amount poll - carried)
    (hdeltas : (if reply.isAccepted then push.deltas Collector.pollName else 0) = carried)
    (hcarried : 0 ≤ carried ∧ carried ≤ w.state.heap.amount poll) :
    (w.replied heap network push reply).Sound poll := by
  have hdelivered : (w.replied heap network push reply).delivered = w.delivered + carried := by
    rw [← hdeltas]
    unfold Watched.delivered Watched.replied
    rw [List.map_append, List.sum_append, List.map_singleton, List.sum_singleton]
  have hnonneg := h.delivered
  have hbalance := h.balance
  refine ⟨h.counts.of_grows hkeys.grows, ?_, ?_, ?_, hnetwork, ?_, h.figures⟩
  · omega
  · show 0 ≤ heap.amount poll
    omega
  · show (w.replied heap network push reply).delivered + heap.amount poll = w.collected.length
    omega
  · show (w.exchanged ++ [(push, reply)]).map Prod.fst = w.state.sent ++ [push]
    rw [List.map_append, h.sent, List.map_singleton]

/-- What was read from a chunk is taken away when its request has arrived, whatever was
counted while it was under way. -/
theorem Sound.acknowledged (h : w.Sound poll) (h' : w'.Sound poll) (hgrows : w.Grows poll w')
    {network : Network} (hnetwork : network.IsInstant) {reply : Reply}
    (hreply : reply.isAccepted = true) (p : Pusher) {chunk : List Handle} (hnodup : chunk.Nodup)
    (hmem : chunk ⊆ w.state.collector.handles) :
    (w'.replied (Pusher.acknowledge w'.state.heap (chunk.zip (chunk.map w.state.heap.get))) network
      (p.pushOf w.state.heap chunk) reply).Sound poll := by
  have hgauges : ∀ x ∈ chunk, x ≠ poll → (w.state.heap.get x).kind = .gauge := fun x hx =>
    h.counts.gauges x (hmem hx)
  have hgauges' : ∀ x ∈ chunk, x ≠ poll → (w'.state.heap.get x).kind = .gauge := fun x hx =>
    h'.counts.gauges x (hgrows.handles (hmem hx))
  have hexact := Agent.takesAwayExactly_read hnodup hgauges' h'.counts.isCounter fun _ =>
    ⟨h.amount, hgrows.amount⟩
  have hdeltas := Agent.deltas_read p.signer p.address p.realIp h.counts.key hgauges
  refine h'.replied hnetwork (Agent.sameKeys_acknowledge _ _)
    (Agent.amount_acknowledge h'.counts.isCounter hexact) ?_ ?_
  · rw [if_pos hreply]
    exact hdeltas
  · have hnonneg := h.amount
    have hnonneg' := h'.amount
    have hle := hgrows.amount
    rw [Agent.carried_read hnodup]
    split
    · exact ⟨hnonneg, hle⟩
    · exact ⟨Int.le_refl 0, hnonneg'⟩

/-- A chunk is sent, something happens meanwhile, and the push goes on or ends. -/
theorem sendChunks_cases (p : Pusher) (timeout : Nat) (amid : Nat → Watched → Watched) (i : Nat)
    (w : Watched) (chunk : List Handle) (later : List (List Handle))
    (hchanges : w.state.network.next.1.changes = []) :
    let reply := w.state.network.next.1.reply
    let after (heap : Heap) := (amid i w).replied heap w.state.network.next.2
      (p.pushOf w.state.heap chunk) reply
    (reply.isAccepted = true ∧ p.sendChunks timeout (course amid) (i, w) (chunk :: later) =
      p.sendChunks timeout (course amid) (i + 1, after (Pusher.acknowledge (amid i w).state.heap
        (chunk.zip (chunk.map w.state.heap.get)))) later) ∨
    (reply.isAccepted = false ∧ ∃ e,
      p.sendChunks timeout (course amid) (i, w) (chunk :: later) =
        (.error e, Pusher.waiting timeout reply, i + 1, after (amid i w).state.heap)) := by
  have hchange : Pusher.change (amid i w).state.heap w.state.network.next.1.changes =
      (amid i w).state.heap := by
    rw [hchanges]
    rfl
  have hcons := p.sendChunks_cons timeout (course amid) (i, w) chunk later
  simp only [course, hchange] at hcons
  simp only [course]
  rcases p.outcome_cases timeout w.state.network.next.1.reply with
    ⟨haccepted, houtcome⟩ | ⟨hrefused, e, houtcome⟩
  · rw [houtcome] at hcons
    exact .inl ⟨haccepted, hcons⟩
  · rw [houtcome] at hcons
    exact .inr ⟨hrefused, e, hcons⟩

/-- The chunks of a push keep what is known, also when polls are counted meanwhile.  They
touch the collecting task only through what happens while requests are under way. -/
theorem Sound.sendChunks {P : Cycle → List Nat → Prop} {amid : Nat → Watched → Watched}
    (hamid : ∀ i (w : Watched), w.Sound poll → P w.collecting w.collected →
      (amid i w).Sound poll ∧ w.Grows poll (amid i w) ∧
        P (amid i w).collecting (amid i w).collected)
    (h : w.Sound poll) (hP : P w.collecting w.collected) {chunks : List (List Handle)}
    (hnodup : chunks.flatten.Nodup) (hmem : chunks.flatten ⊆ w.state.collector.handles)
    (p : Pusher) (timeout i : Nat) :
    let pushed := (p.sendChunks timeout (course amid) (i, w) chunks).2
    pushed.1 = 0 ∧ pushed.2.2.Sound poll ∧ P pushed.2.2.collecting pushed.2.2.collected := by
  induction chunks generalizing i w with
  | nil => exact ⟨rfl, h, hP⟩
  | cons chunk later ih =>
    rw [List.flatten_cons] at hnodup hmem
    rcases hamid i w h hP with ⟨h', hgrows, hP'⟩
    rcases h.network.next with ⟨hchanges, hreply, hnetwork⟩
    rcases sendChunks_cases p timeout amid i w chunk later hchanges with
      ⟨haccepted, hpushed⟩ | ⟨hrefused, e, hpushed⟩
    · rw [hpushed]
      have hsound := h.acknowledged h' hgrows hnetwork haccepted p hnodup.of_append_left
        fun x hx => hmem (List.mem_append_left _ hx)
      exact ih hsound hP' hnodup.of_append_right
        (fun x hx => hgrows.handles (hmem (List.mem_append_right _ hx))) (i + 1)
    · rw [hpushed]
      exact ⟨Pusher.waiting_eq_zero hreply _, h'.replied hnetwork (.refl _) (Int.sub_zero _).symm
        (if_neg (ne_true_of_eq_false hrefused)) ⟨Int.le_refl 0, h'.amount⟩, hP'⟩

/-- A push as a whole, if what happens meanwhile keeps what is known. -/
theorem Sound.pushAll {P : Cycle → List Nat → Prop} {order : Order} {stop : Bool}
    (hamid : ∀ i (w : Watched), w.Sound poll → P w.collecting w.collected →
      (amid order stop n i w).Sound poll ∧ w.Grows poll (amid order stop n i w) ∧
        P (amid order stop n i w).collecting (amid order stop n i w).collected)
    (h : w.Sound poll) (hP : P w.collecting w.collected) :
    let pushed := w.pushAll order stop n
    pushed.1 = 0 ∧ pushed.2.Sound poll ∧ P pushed.2.collecting pushed.2.collected := by
  have hflatten := Agent.flatten_chunks w.state.pusher.batchSize w.state.collector.handles
  exact h.sendChunks hamid hP (by rw [hflatten]; exact h.counts.nodup)
    (by rw [hflatten]; exact List.Subset.refl _) _ _ 0

/-- The turn of the pushing task. -/
theorem Sound.push {pushPeriod : Nat} {P : Cycle → List Nat → Prop} {order : Order}
    (hamid : ∀ i (w : Watched), w.Sound poll → P w.collecting w.collected →
      let w' := amid order (decide (cancelled ≤ n)) n i w
      w'.Sound poll ∧ w.Grows poll w' ∧ P w'.collecting w'.collected)
    (h : w.Sound poll) (hP : P w.collecting w.collected)
    (hpushing : w.pushing.Timely pushPeriod pushPeriod cancelled n w.pushed) :
    let w' := w.push order (decide (cancelled ≤ n)) n
    w'.Sound poll ∧ P w'.collecting w'.collected ∧
      w'.pushing.Timely pushPeriod pushPeriod cancelled (n + 1) w'.pushed := by
  rcases h.pushAll hamid hP with ⟨hinstant, hsound, hP'⟩
  have htask : (pushTask order (decide (cancelled ≤ n)) n (w, w.pushed)).1 = 0 := hinstant
  unfold Watched.push
  simp only
  rcases hpushing.run_cases htask with ⟨c, hc, hrun⟩ | ⟨c, hc, hrun⟩
  · rw [hrun]
    exact ⟨hsound.withCycles _ _ _, hP', hc⟩
  · rw [hrun]
    exact ⟨h.withCycles _ _ _, hP, hc⟩

/-! ## Moments -/

/-- What is known of an agent before some moment. -/
structure Kept (collectPeriod pushPeriod cancelled : Nat) (poll : Handle) (n : Nat)
    (w : Watched) : Prop where
  sound : w.Sound poll
  collecting : w.collecting.Timely 0 collectPeriod cancelled n w.collected
  pushing : w.pushing.Timely pushPeriod pushPeriod cancelled n w.pushed

/-- One moment, whichever task comes first. -/
theorem Kept.turn {pushPeriod : Nat} (h : w.Kept collectPeriod pushPeriod cancelled poll n)
    (hroom : (Cycle.ticksBefore 0 collectPeriod cancelled : Int) ≤ Count.greatest)
    {shown : Machine} (hshown : shown.HasFigures) (order : Order) :
    (w.turn cancelled shown order n).Kept collectPeriod pushPeriod cancelled poll (n + 1) := by
  let seen : Watched := { w with state.shown := shown }
  have hseen : seen.Sound poll :=
    ⟨h.sound.counts, h.sound.delivered, h.sound.amount, h.sound.balance, h.sound.network,
      h.sound.sent, hshown⟩
  cases order with
  | collecting =>
    rcases hseen.collect (.inl h.collecting) hroom with ⟨hsound, -, hcollecting⟩
    have hamid (i : Nat) (w : Watched) (hw : w.Sound poll)
        (htimely : w.collecting.Timely 0 collectPeriod cancelled (n + 1) w.collected) :
        let w' := amid .collecting (decide (cancelled ≤ n)) n i w
        w'.Sound poll ∧ w.Grows poll w' ∧
          w'.collecting.Timely 0 collectPeriod cancelled (n + 1) w'.collected := by
      rw [amid_collecting]
      exact ⟨hw, .refl poll w, htimely⟩
    rcases hsound.push (P := fun c => c.Timely 0 collectPeriod cancelled (n + 1)) hamid hcollecting
      h.pushing with ⟨hsound', hcollecting', hpushing⟩
    exact ⟨hsound', hcollecting', hpushing⟩
  | pushing request =>
    have hamid (i : Nat) (w : Watched) (hw : w.Sound poll)
        (htimely : IsTimely collectPeriod cancelled n w.collecting w.collected) :
        let w' := amid (.pushing request) (decide (cancelled ≤ n)) n i w
        w'.Sound poll ∧ w.Grows poll w' ∧
          IsTimely collectPeriod cancelled n w'.collecting w'.collected := by
      unfold amid
      split
      · rcases hw.collect htimely hroom with ⟨hw', hgrows, htimely'⟩
        exact ⟨hw', hgrows, .inr htimely'⟩
      · exact ⟨hw, .refl poll w, htimely⟩
    rcases hseen.push (P := IsTimely collectPeriod cancelled n) hamid (.inl h.collecting)
      h.pushing with ⟨hsound, htimely, hpushing⟩
    rcases hsound.collect htimely hroom with ⟨hsound', -, hcollecting⟩
    exact ⟨hsound', hcollecting, hpushing⟩

/-- Any number of moments. -/
theorem Kept.after {pushPeriod : Nat} (h : w.Kept collectPeriod pushPeriod cancelled poll 0)
    (hroom : (Cycle.ticksBefore 0 collectPeriod cancelled : Int) ≤ Count.greatest)
    {shown : Nat → Machine} (hshown : ∀ n, (shown n).HasFigures) (order : Nat → Order) (n : Nat) :
    (w.after cancelled shown order n).Kept collectPeriod pushPeriod cancelled poll n := by
  induction n with
  | zero => exact h
  | succ n ih => exact ih.turn hroom (hshown n) (order n)

/-! ## Runs -/

/-- An agent has collected metrics at its start and after every period, and pushed them
after every period of another length, until it was stopped.  Each time that metrics were
collected was counted once: it was delivered in some request that has arrived, or the only
counter of polls still holds it. -/
structure CountsOnce (collectPeriod pushPeriod cancelled : Nat) (w : Watched) : Prop where
  stopped : w.agent.stopped = true
  collected : w.collected = (List.range (cancelled / collectPeriod + 1)).map (· * collectPeriod)
  pushed : w.pushed = (List.range (cancelled / pushPeriod)).map fun k => (k + 1) * pushPeriod
  sent : w.exchanged.map Prod.fst = w.state.sent
  counted : ∃ poll n, poll ∈ w.state.collector.handles ∧
    (∀ x ∈ w.state.collector.handles,
      (w.state.heap.get x).key = ⟨.counter, Collector.pollName⟩ → x = poll) ∧
    w.state.heap.get? poll = some ⟨Collector.pollName, .total n⟩ ∧
    w.delivered + n.val = cancelled / collectPeriod + 1

/-- What is known after the moment at which an agent was stopped. -/
theorem Kept.countsOnce {pushPeriod : Nat} (h : w.Kept collectPeriod pushPeriod cancelled poll n)
    (hperiod : 0 < collectPeriod) (hcollect : ¬ collectPeriod ∣ cancelled)
    (hpush : ¬ pushPeriod ∣ cancelled) (hover : cancelled < n) :
    w.CountsOnce collectPeriod pushPeriod cancelled := by
  have hmin : min n cancelled = cancelled := Nat.min_eq_right (Nat.le_of_lt hover)
  have hcollected := h.collecting.done
  rw [hmin, Cycle.ticksBefore_zero hperiod hcollect] at hcollected
  have hpushed := h.pushing.done
  rw [Cycle.ticksBefore_min hpush, Nat.min_eq_right (Nat.le_sub_one_of_lt hover)] at hpushed
  have hlength : w.collected.length = cancelled / collectPeriod + 1 := by
    rw [hcollected, Cycle.moments, List.length_map, List.length_range]
  rcases h.sound.counts.isCounter.exists_get? with ⟨total, hget, hamount⟩
  have hname : (w.state.heap.get poll).name = Collector.pollName :=
    congrArg Key.name h.sound.counts.key
  have hbalance := h.sound.balance
  constructor
  · show ((some w.collecting).all (·.stopped) && w.pushing.stopped) = true
    rw [Option.all_some, h.collecting.stopped hover, h.pushing.stopped hover]
    rfl
  · rw [hcollected]
    exact List.map_congr_left fun k _ => Nat.zero_add _
  · rw [hpushed]
    refine List.map_congr_left fun k _ => ?_
    rw [Nat.add_mul, Nat.one_mul, Nat.add_comm]
  · exact h.sound.sent
  · refine ⟨poll, total, h.sound.counts.mem, fun x hx hkey => ?_, hname ▸ hget, ?_⟩
    · by_contra hne
      have hgauge := h.sound.counts.gauges x hx hne
      have hcounter : (w.state.heap.get x).kind = .counter := congrArg Key.kind hkey
      cases hgauge.symm.trans hcounter
    · rw [hlength] at hbalance
      rw [← hamount, hbalance]
      push_cast
      rfl

end

/-- If a period is at least a second, there are never more polls than a total can hold. -/
theorem room_of_clock {period cancelled : Nat} (hclock : cancelled < 2 ^ 64)
    (hperiod : 1000 ≤ period) (hcancelled : ¬ period ∣ cancelled) :
    (Cycle.ticksBefore 0 period cancelled : Int) ≤ Count.greatest := by
  have hle : cancelled / period ≤ cancelled / 1000 := Nat.div_le_div_left hperiod (by decide)
  have hlt : cancelled / 1000 + 1 ≤ 9223372036854775807 := by omega
  rw [Cycle.ticksBefore_zero (Nat.lt_of_lt_of_le (by decide) hperiod) hcancelled]
  exact Int.ofNat_le.2 (Nat.le_trans (Nat.succ_le_succ hle) hlt)

/-- What is known of the agent of an accepted configuration at its start. -/
theorem exists_kept_starting {config : Config.Agent} (haccepted : config.check = .ok ())
    (batchSize : Nat) (heap : Heap) {network : Network} (hnetwork : network.IsInstant)
    {shown : Machine} (hshown : shown.HasFigures) (cancelled : Nat) :
    ∃ (pusher : Pusher) (h : 0 < config.pollInterval * 1000)
      (h' : 0 < config.reportInterval * 1000) (poll : Handle), config.pusher = .ok pusher ∧
      let state : AgentState := ⟨(Collector.standard heap).2, (Collector.standard heap).1, shown,
        network, { pusher with batchSize := batchSize }, config.pushTimeout, []⟩
      (starting state _ _ h h').Kept (config.pollInterval * 1000) (config.reportInterval * 1000)
        cancelled poll 0 := by
  have hconfig := Config.Agent.check_eq_ok_iff.1 haccepted
  rcases hconfig.exists_pusher with ⟨address, hpusher⟩
  have hperiod : 0 < config.pollInterval * 1000 := Nat.mul_pos hconfig.pollInterval.1 (by decide)
  have hperiod' : 0 < config.reportInterval * 1000 :=
    Nat.mul_pos hconfig.reportInterval.1 (by decide)
  rcases Collector.counts_standard heap with ⟨poll, hcounts, hamount⟩
  refine ⟨_, hperiod, hperiod', poll, hpusher,
    ⟨hcounts, Int.le_refl 0, Int.le_of_eq hamount.symm, ?_, hnetwork, rfl, hshown⟩,
    Cycle.timely_starting hperiod .startAnew, Cycle.timely_starting hperiod' .startAnew⟩
  show 0 + (Collector.standard heap).2.amount poll = 0
  rw [hamount]
  rfl

/-- Every run of the agent of an accepted configuration, with chunks of any size, whatever
becomes of its requests and whichever task comes first where both are due.  Its clock
counts milliseconds in 64 bits. -/
theorem counts_once {config : Config.Agent} (haccepted : config.check = .ok ()) (batchSize : Nat)
    (heap : Heap) {network : Network} (hnetwork : network.IsInstant) {shown : Nat → Machine}
    (hshown : ∀ n, (shown n).HasFigures) (order : Nat → Order) {cancelled : Nat}
    (hclock : cancelled < 2 ^ 64) (hcollect : ¬ config.pollInterval * 1000 ∣ cancelled)
    (hpush : ¬ config.reportInterval * 1000 ∣ cancelled) {n : Nat} (hover : cancelled < n) :
    ∃ (pusher : Pusher) (h : 0 < config.pollInterval * 1000)
      (h' : 0 < config.reportInterval * 1000), config.pusher = .ok pusher ∧
      let state : AgentState := ⟨(Collector.standard heap).2, (Collector.standard heap).1, shown 0,
        network, { pusher with batchSize := batchSize }, config.pushTimeout, []⟩
      ((starting state _ _ h h').after cancelled shown order n).CountsOnce
        (config.pollInterval * 1000) (config.reportInterval * 1000) cancelled := by
  have hconfig := Config.Agent.check_eq_ok_iff.1 haccepted
  have hroom := room_of_clock hclock (Nat.le_mul_of_pos_left 1000 hconfig.pollInterval.1) hcollect
  rcases exists_kept_starting haccepted batchSize heap hnetwork (hshown 0) cancelled with
    ⟨pusher, h, h', poll, hpusher, hstart⟩
  exact ⟨pusher, h, h', hpusher, (hstart.after hroom hshown order n).countsOnce h hcollect hpush
    hover⟩

/-- The agent without a configuration, in chunks of three.  Its first push fails at its
first request, and metrics are collected while that is under way; the second push comes
after metrics were collected. -/
theorem counts_once_of_failing_push :
    let config := Config.Agent.default
    let network : Network := ⟨[⟨[], .unreachable "connection refused"⟩], .answered 200 ""⟩
    let shown (_ : Nat) : Machine :=
      ⟨some [.zero false], .zero false, .zero false, .zero false, [.zero false]⟩
    let order (n : Nat) : Order := if n < 15000 then .pushing 0 else .collecting
    ∃ (pusher : Pusher) (h : 0 < config.pollInterval * 1000)
      (h' : 0 < config.reportInterval * 1000), config.pusher = .ok pusher ∧
      let state : AgentState := ⟨(Collector.standard .empty).2, (Collector.standard .empty).1,
        shown 0, network, { pusher with batchSize := 3 }, config.pushTimeout, []⟩
      let w := (starting state _ _ h h').after 20500 shown order 20501
      w.CountsOnce (config.pollInterval * 1000) (config.reportInterval * 1000) 20500 ∧
        w.collected.length = 11 ∧ w.pushed = [10000, 20000] := by
  intro config network shown order
  have hnetwork : network.IsInstant := by
    constructor
    · intro e he
      rw [List.mem_singleton.1 he]
      exact ⟨rfl, nofun⟩
    · exact nofun
  have hshown (n : Nat) : (shown n).HasFigures := by
    intro figures hfigures x hx
    cases hfigures
    rw [List.mem_singleton.1 hx]
    rfl
  have haccepted : config.check = .ok () := by decide
  have hclock : 20500 < 2 ^ 64 := by decide
  have hcollect : ¬ config.pollInterval * 1000 ∣ 20500 := by decide
  have hpush : ¬ config.reportInterval * 1000 ∣ 20500 := by decide
  rcases counts_once haccepted 3 .empty hnetwork hshown order hclock hcollect hpush
    (Nat.lt_succ_self 20500) with ⟨pusher, h, h', hpusher, hcounts⟩
  have hcollected : 20500 / (config.pollInterval * 1000) + 1 = 11 := by decide
  have hpushed : (List.range (20500 / (config.reportInterval * 1000))).map
      (fun k => (k + 1) * (config.reportInterval * 1000)) = [10000, 20000] := by decide
  refine ⟨pusher, h, h', hpusher, hcounts, ?_, ?_⟩
  · rw [hcounts.collected, List.length_map, List.length_range, hcollected]
  · rw [hcounts.pushed, hpushed]

end AgentRun.Watched

/-! ## The agent that is not watched -/

namespace AgentRun

open Agent (Collector Machine Network Pusher)

/-- The deltas for polls in all requests that have arrived, where it is known what a network
has replied. -/
def delivered (network : Network) (r : AgentRun) : Int :=
  ((r.state.sent.zip (network.replies r.state.sent.length)).map fun x =>
    if x.2.isAccepted then x.1.deltas Collector.pollName else 0).sum

/-- An agent that has collected metrics at its start and after every period until it was
stopped has counted each of these polls once: it was delivered in some request that has
arrived, or the only counter of polls still holds it. -/
structure CountsPolls (network : Network) (collectPeriod cancelled : Nat) (r : AgentRun) :
    Prop where
  stopped : r.stopped = true
  counted : ∃ poll n, poll ∈ r.state.collector.handles ∧
    (∀ x ∈ r.state.collector.handles,
      (r.state.heap.get x).key = ⟨.counter, Collector.pollName⟩ → x = poll) ∧
    r.state.heap.get? poll = some ⟨Collector.pollName, .total n⟩ ∧
    r.delivered network + n.val = cancelled / collectPeriod + 1

/-- What was written down to have arrived has got a reply of the network that says so. -/
theorem Watched.Follows.delivered_eq {w : Watched} {network : Network} (h : w.Follows network)
    (hsent : w.exchanged.map Prod.fst = w.state.sent) :
    w.delivered = w.agent.delivered network := by
  have hlength : w.exchanged.length = w.state.sent.length := by
    rw [← hsent, List.length_map]
  have hreplies := h.replies
  rw [hlength] at hreplies
  have hzip : w.agent.state.sent.zip (network.replies w.agent.state.sent.length) = w.exchanged :=
    (List.zip_of_prod hsent hreplies).symm
  unfold Watched.delivered AgentRun.delivered
  rw [hzip]

/-- Every run of the agent of an accepted configuration: what is known of one that is
watched, and collects metrics first at every moment, is known of the agent itself. -/
theorem counts_polls {config : Config.Agent} (haccepted : config.check = .ok ()) (batchSize : Nat)
    (heap : Heap) {network : Network} (hnetwork : network.IsInstant) {shown : Nat → Machine}
    (hshown : ∀ n, (shown n).HasFigures) {cancelled : Nat} (hclock : cancelled < 2 ^ 64)
    (hcollect : ¬ config.pollInterval * 1000 ∣ cancelled)
    (hpush : ¬ config.reportInterval * 1000 ∣ cancelled) {n : Nat} (hover : cancelled < n) :
    ∃ (pusher : Pusher) (h : 0 < config.pollInterval * 1000)
      (h' : 0 < config.reportInterval * 1000), config.pusher = .ok pusher ∧
      let state : AgentState := ⟨(Collector.standard heap).2, (Collector.standard heap).1, shown 0,
        network, { pusher with batchSize := batchSize }, config.pushTimeout, []⟩
      ((AgentRun.starting state _ _ h h').after cancelled shown n).CountsPolls network
        (config.pollInterval * 1000) cancelled := by
  have hconfig := Config.Agent.check_eq_ok_iff.1 haccepted
  have hroom := Watched.room_of_clock hclock
    (Nat.le_mul_of_pos_left 1000 hconfig.pollInterval.1) hcollect
  rcases Watched.exists_kept_starting haccepted batchSize heap hnetwork (hshown 0) cancelled with
    ⟨pusher, h, h', poll, hpusher, hstart⟩
  refine ⟨pusher, h, h', hpusher, ?_⟩
  intro state
  have hcounts := (hstart.after hroom hshown (fun _ => .collecting) n).countsOnce h hcollect hpush
    hover
  have hfollows := (Watched.follows_starting state h h').after cancelled shown
    (fun _ => .collecting) n
  rw [← Watched.agent_after_starting cancelled shown state h h' n]
  refine ⟨hcounts.stopped, ?_⟩
  rw [← hfollows.delivered_eq hcounts.sent]
  exact hcounts.counted

end AgentRun

end MetricRelay
