import MetricRelay.Proofs.Agent.Polls

/-!
# What a push comes to

A push sends its chunks one after the other, up to the first that does not arrive.  A cell
may be in several chunks and several times in one of them, and others may change it while
a request is under way.  A counter gives up what the messages that have arrived carry for
it, once for each of them, and nothing else; everything else is left to the others.

Main definitions:

- `Network.changes`: what others change while the first requests are under way.
- `Heap.Becomes`: what cells have become, after changes of others and after chunks have
  arrived.
- `Pusher.KeepsRange`: no total stops at an end of its range during a push.
- `Pusher.StopsAt` and `Pusher.PushesTo`: the first chunk that does not arrive, and what
  a push up to it comes to.

Main results:

- `Heap.Becomes.trans`: two parts of a push are accounted for together.
- `Pusher.becomes_arrive`: one chunk that arrives.
- `Pusher.pushes_to_first_failure`: every push.
-/

namespace MetricRelay

/-! ## Cells -/

namespace Heap

variable {heap heap' : Heap} {h : Handle}

/-- An update through another handle makes no difference to a cell. -/
theorem get_update_of_ne (heap : Heap) {h' : Handle} (hne : h' ≠ h) (u : Value) :
    (heap.update h' u).2.get h = heap.get h := by
  rw [update_snd]
  cases (heap.get h').update u with
  | ok m => exact heap.get_set_of_ne hne m
  | error e => rfl

/-- An update does the same to a cell on any heap that shows the same there. -/
theorem get_update_congr (hsize : heap'.size = heap.size) (hget : heap'.get h = heap.get h)
    (h' : Handle) (u : Value) : (heap'.update h' u).2.get h = (heap.update h' u).2.get h := by
  by_cases heq : h' = h
  · subst heq
    rw [update_snd, update_snd, hget]
    cases (heap.get h').update u with
    | error e => exact hget
    | ok m =>
      by_cases hvalid : h'.index < heap.size
      · simp only
        rw [get_set heap' h' h' m (by rw [hsize]; exact hvalid), get_set heap h' h' m hvalid,
          if_pos rfl, if_pos rfl]
      · simp only
        rw [heap.set_of_size_le (Nat.le_of_not_lt hvalid),
          heap'.set_of_size_le (by rw [hsize]; exact Nat.le_of_not_lt hvalid)]
        exact hget
  · rw [heap'.get_update_of_ne heq, heap.get_update_of_ne heq]
    exact hget

/-- An acknowledgement takes nothing away from another cell, nor from a gauge. -/
theorem get_acknowledge_of_ne {h' : Handle} (hother : (heap.get h).kind = .gauge ∨ h' ≠ h)
    (sent : Value) : (heap.acknowledge h' sent).get h = heap.get h := by
  unfold acknowledge
  rcases heap.get_set_cases h h' ((heap.get h').acknowledge sent) with hsame | ⟨rfl, hset⟩
  · exact hsame
  · rcases hother with hgauge | hne
    · have hkind : (heap.get h').kind ≠ .counter := by
        rw [hgauge]
        decide
      rw [hset, Metric.acknowledge_of_gauge hkind]
    · exact absurd rfl hne

end Heap

/-! ## Requests -/

namespace Agent

namespace Network

/-- What others change while the first requests are under way. -/
def changes (n : Network) (requests : Nat) : List (Handle × Value) :=
  (List.range requests).flatMap fun i => (n.nth i).changes

/-- The changes up to a request are those of the next one and those after it. -/
theorem changes_succ (n : Network) (requests : Nat) :
    n.changes (requests + 1) = n.next.1.changes ++ n.next.2.changes requests := by
  unfold changes
  rw [List.range_succ_eq_map, List.flatMap_cons, List.flatMap_map, nth_zero]
  simp only [nth_succ]

end Network

/-- What the messages of a request carry for a cell, each for the handle of a chunk at its
position. -/
def Push.carries (h : Handle) (chunk : List Handle) (push : Push) : Int :=
  ((chunk.zip push.messages).map fun x =>
    if x.1 = h then (x.2.delta.map Count.val).getD 0 else 0).sum

/-- What changes add to a counter. -/
def incremented (h : Handle) (changes : List (Handle × Value)) : Int :=
  (changes.map fun x => if x.1 = h then x.2.amount else 0).sum

/-- The messages of a chunk carry what was read. -/
theorem Pusher.carries_pushOf (p : Pusher) (heap : Heap) (h : Handle) (chunk : List Handle) :
    (p.pushOf heap chunk).carries h chunk = carried h (chunk.zip (chunk.map heap.get)) := by
  unfold Push.carries carried Pusher.pushOf
  simp only [List.map_map, ← List.map_prod_left_eq_zip]
  refine congrArg List.sum (List.map_congr_left fun x _ => ?_)
  simp only [Function.comp_apply, delta_message]

/-! ## Changes of cells -/

/-- No change by others stops at an end of the range of totals. -/
def ChangesExactly (heap : Heap) : List (Handle × Value) → Prop
  | [] => True
  | x :: changes =>
    (heap.get x.1).value.AddsExactly x.2 ∧ ChangesExactly (heap.update x.1 x.2).2 changes

namespace Pusher

variable {heap heap' : Heap} {h : Handle} {changes : List (Handle × Value)}
  {arrived : List (Handle × Metric)}

theorem change_cons (heap : Heap) (x : Handle × Value) (changes : List (Handle × Value)) :
    change heap (x :: changes) = change (heap.update x.1 x.2).2 changes :=
  rfl

theorem acknowledge_cons (heap : Heap) (x : Handle × Metric) (arrived : List (Handle × Metric)) :
    acknowledge heap (x :: arrived) = acknowledge (heap.acknowledge x.1 x.2.value) arrived :=
  rfl

/-- Others change values only. -/
theorem sameKeys_change (heap : Heap) (changes : List (Handle × Value)) :
    SameKeys heap (change heap changes) := by
  induction changes generalizing heap with
  | nil => exact .refl heap
  | cons x changes ih =>
    have hone : SameKeys heap (heap.update x.1 x.2).2 :=
      ⟨heap.size_update x.1 x.2, fun h => heap.key_get_update x.1 h x.2⟩
    exact hone.trans (ih _)

/-- Changes do the same to a cell on any heap that shows the same there. -/
theorem change_congr (hsize : heap'.size = heap.size) (hget : heap'.get h = heap.get h) :
    (change heap' changes).get h = (change heap changes).get h := by
  induction changes generalizing heap heap' with
  | nil => exact hget
  | cons x changes ih =>
    rw [change_cons, change_cons]
    refine ih ?_ ?_
    · rw [Heap.size_update, Heap.size_update, hsize]
    · exact Heap.get_update_congr hsize hget x.1 x.2

/-- Changes add to a counter what they are. -/
theorem amount_change (hcounter : heap.IsCounter h) (hexact : ChangesExactly heap changes) :
    (change heap changes).amount h = heap.amount h + incremented h changes := by
  induction changes generalizing heap with
  | nil => exact (Int.add_zero _).symm
  | cons x changes ih =>
    rcases hexact with ⟨hone, hrest⟩
    have hcounter' : (heap.update x.1 x.2).2.IsCounter h :=
      hcounter.congr (heap.size_update _ _) (heap.key_get_update _ _ _)
    have hsum : incremented h (x :: changes) =
        (if x.1 = h then x.2.amount else 0) + incremented h changes := by
      unfold incremented
      rw [List.map_cons, List.sum_cons]
    rw [change_cons, ih hcounter' hrest, Heap.amount_update hcounter hone, hsum]
    omega

/-- What has arrived is taken away from no other cell, and from no gauge. -/
theorem get_acknowledge_of_not_mem
    (hother : (heap.get h).kind = .gauge ∨ h ∉ arrived.map Prod.fst) :
    (acknowledge heap arrived).get h = heap.get h := by
  induction arrived generalizing heap with
  | nil => rfl
  | cons x arrived ih =>
    have hone : (heap.acknowledge x.1 x.2.value).get h = heap.get h := by
      refine Heap.get_acknowledge_of_ne (hother.imp_right fun hmem heq => ?_) x.2.value
      exact hmem (heq ▸ List.mem_cons_self)
    rw [acknowledge_cons, ih, hone]
    rw [hone]
    exact hother.imp_right fun hmem hrest => hmem (List.mem_cons_of_mem _ hrest)

end Pusher

end Agent

/-! ## Parts of a push -/

open Agent (Network Push Pushed Pusher Reply SameKeys World ChangesExactly chunks incremented)

namespace Heap

/-- What cells have become: others have changed them, and requests with chunks have
arrived.  A counter has given up what those carry for it, as long as no total stops at an
end of the range; a gauge, and a cell that is in no such chunk, has only been changed by
others. -/
structure Becomes (exact : Prop) (heap heap' : Heap) (changes : List (Handle × Value))
    (arrived : List (List Handle × Push)) : Prop where
  keys : SameKeys heap heap'
  others : ∀ {h}, (heap.get h).kind = .gauge ∨ (∀ x ∈ arrived, h ∉ x.1) →
    heap'.get h = (Pusher.change heap changes).get h
  counters : exact → ∀ {h}, heap.IsCounter h → heap'.amount h =
    heap.amount h + incremented h changes - (arrived.map fun x => x.2.carries h x.1).sum

variable {exact exact' : Prop} {heap heap' heap'' : Heap} {changes changes' : List (Handle × Value)}
  {arrived arrived' : List (List Handle × Push)}

/-- An account that holds under some condition holds under a stronger one. -/
theorem Becomes.mono (h : Becomes exact heap heap' changes arrived) (hexact : exact' → exact) :
    Becomes exact' heap heap' changes arrived :=
  ⟨h.keys, h.others, fun h' => h.counters (hexact h')⟩

theorem Becomes.refl (exact : Prop) (heap : Heap) : Becomes exact heap heap [] [] :=
  ⟨.refl heap, fun _ => rfl, fun _ h _ => by simp [incremented]⟩

/-- Two parts of a push are accounted for together. -/
theorem Becomes.trans (h : Becomes exact heap heap' changes arrived)
    (h' : Becomes exact' heap' heap'' changes' arrived') :
    Becomes (exact ∧ exact') heap heap'' (changes ++ changes') (arrived ++ arrived') := by
  have happend : Pusher.change heap (changes ++ changes') =
      Pusher.change (Pusher.change heap changes) changes' := List.foldl_append
  have hkeys := Pusher.sameKeys_change heap changes
  refine ⟨h.keys.trans h'.keys, fun {x} hother => ?_, fun hexact {x} hcounter => ?_⟩
  · have hfirst := h.others (hother.imp_right fun hmem y hy => hmem y (List.mem_append_left _ hy))
    have hkind : (heap'.get x).kind = (heap.get x).kind := congrArg Key.kind (h.keys.key x)
    rw [← hkind] at hother
    have hlater := h'.others
      (hother.imp_right fun hmem y hy => hmem y (List.mem_append_right _ hy))
    rw [hlater, happend]
    exact Pusher.change_congr (h.keys.size.trans hkeys.size.symm) hfirst
  · have hfirst := h.counters hexact.1 hcounter
    have hlater := h'.counters hexact.2 (hcounter.congr h.keys.size (h.keys.key x))
    have hchanges : incremented x (changes ++ changes') =
        incremented x changes + incremented x changes' := by
      unfold incremented
      rw [List.map_append, List.sum_append]
    rw [List.map_append, List.sum_append, hchanges, hlater, hfirst]
    omega

end Heap

namespace Agent.Pusher

/-- Changes of others alone are an account without chunks. -/
theorem becomes_change (heap : Heap) (changes : List (Handle × Value)) :
    heap.Becomes (ChangesExactly heap changes) (change heap changes) changes [] := by
  refine ⟨sameKeys_change heap changes, fun _ => rfl, fun hexact {h} hcounter => ?_⟩
  rw [amount_change hcounter hexact, List.map_nil, List.sum_nil, Int.sub_zero]

/-- What was read from a chunk is taken away, whatever its cells are now. -/
theorem becomes_acknowledge (p : Pusher) (seen heap : Heap) (chunk : List Handle) :
    heap.Becomes (World.TakesAwayExactly heap (chunk.zip (chunk.map seen.get)))
      (acknowledge heap (chunk.zip (chunk.map seen.get))) [] [(chunk, p.pushOf seen chunk)] := by
  refine ⟨sameKeys_acknowledge heap _, fun {h} hother => ?_, fun hexact {h} hcounter => ?_⟩
  · refine get_acknowledge_of_not_mem (hother.imp_right fun hmem hzip => ?_)
    rw [List.map_fst_zip (by rw [List.length_map])] at hzip
    exact hmem _ List.mem_cons_self hzip
  · rw [amount_acknowledge hcounter hexact, List.map_singleton, List.sum_singleton,
      carries_pushOf]
    simp [incremented]

/-! ## Pushes -/

/-- The cells after a chunk was read, others have changed cells meanwhile, and its request
has arrived. -/
def arrive (heap : Heap) (network : Network) (chunk : List Handle) : Heap :=
  acknowledge (change heap network.next.1.changes) (chunk.zip (chunk.map heap.get))

/-- No total stops at an end of its range during a push: neither where others change cells
while a request is under way, nor where what has arrived is taken away. -/
def KeepsRange (heap : Heap) (network : Network) : List (List Handle) → Prop
  | [] => True
  | chunk :: later =>
    ChangesExactly heap network.next.1.changes ∧
      (network.next.1.reply.isAccepted = true →
        World.TakesAwayExactly (change heap network.next.1.changes)
          (chunk.zip (chunk.map heap.get)) ∧
        KeepsRange (arrive heap network chunk) network.next.2 later)

/-- The first `k` requests arrive, and if there is a chunk after theirs, its own does not.
-/
structure StopsAt (network : Network) (cs : List (List Handle)) (k : Nat) : Prop where
  le : k ≤ cs.length
  arrived : ∀ i < k, (network.nth i).reply.isAccepted = true
  fails : k < cs.length → (network.nth k).reply.isAccepted = false

/-- What a push comes to whose chunk of some number is the first that does not arrive.
Chunks up to that one are sent in order, and each carries what its cells were when it was
read.  The chunks before it have arrived. -/
structure PushesTo (p : Pusher) (timeout : Nat) (heap : Heap) (network : Network)
    (cs : List (List Handle)) (k : Nat) (pushed : Pushed) : Prop where
  result : pushed.result = if k < cs.length then p.outcome timeout (network.nth k).reply else .ok ()
  length_sent : pushed.sent.length = min (k + 1) cs.length
  sent : ∀ {i chunk push}, cs[i]? = some chunk → pushed.sent[i]? = some push →
    ∃ seen, push = p.pushOf seen chunk ∧ heap.Becomes (KeepsRange heap network cs) seen
      (network.changes i) ((cs.zip pushed.sent).take i)
  cells : heap.Becomes (KeepsRange heap network cs) pushed.heap
    (network.changes pushed.sent.length) ((cs.zip pushed.sent).take k)

/-- A push goes on after a reply that accepts its request. -/
theorem outcome_of_accepted (p : Pusher) (timeout : Nat) {reply : Reply}
    (haccepted : reply.isAccepted = true) : p.outcome timeout reply = .ok () := by
  rcases p.outcome_cases timeout reply with ⟨-, houtcome⟩ | ⟨hrefused, -⟩
  · exact houtcome
  · cases haccepted.symm.trans hrefused

/-- A push ends with a reply that does not accept its request. -/
theorem outcome_of_refused (p : Pusher) (timeout : Nat) {reply : Reply}
    (hrefused : reply.isAccepted = false) : ∃ e, p.outcome timeout reply = .error e := by
  rcases p.outcome_cases timeout reply with ⟨haccepted, -⟩ | ⟨-, houtcome⟩
  · cases haccepted.symm.trans hrefused
  · exact houtcome

section

variable {p : Pusher} {timeout : Nat} {heap : Heap} {network : Network} {chunk : List Handle}
  {later : List (List Handle)}

/-- A chunk that arrives is taken away, and the push goes on with the next. -/
theorem pushChunks_of_accepted (haccepted : network.next.1.reply.isAccepted = true) :
    p.pushChunks timeout heap network (chunk :: later) =
      let pushed := p.pushChunks timeout (arrive heap network chunk) network.next.2 later
      { pushed with sent := p.pushOf heap chunk :: pushed.sent } := by
  rw [pushChunks_cons, p.outcome_of_accepted timeout haccepted]
  rfl

/-- A chunk that does not arrive ends a push. -/
theorem pushChunks_of_refused (hrefused : network.next.1.reply.isAccepted = false) :
    p.pushChunks timeout heap network (chunk :: later) =
      ⟨p.outcome timeout network.next.1.reply, change heap network.next.1.changes,
        [p.pushOf heap chunk], network.next.2, waiting timeout network.next.1.reply⟩ := by
  rcases p.outcome_of_refused timeout hrefused with ⟨e, houtcome⟩
  rw [pushChunks_cons, houtcome]

/-- One chunk that arrives: its cells give up what its messages carry. -/
theorem becomes_arrive (p : Pusher) (heap : Heap) (network : Network) (chunk : List Handle) :
    heap.Becomes (ChangesExactly heap network.next.1.changes ∧
        World.TakesAwayExactly (change heap network.next.1.changes)
          (chunk.zip (chunk.map heap.get)))
      (arrive heap network chunk) network.next.1.changes [(chunk, p.pushOf heap chunk)] := by
  have hchanged := becomes_change heap network.next.1.changes
  have harrived := p.becomes_acknowledge heap (change heap network.next.1.changes) chunk
  have hboth := hchanged.trans harrived
  rw [List.append_nil] at hboth
  exact hboth

/-- What the later part of a push makes of the cells, seen from its start. -/
theorem becomes_later (haccepted : network.next.1.reply.isAccepted = true) {heap' : Heap}
    {requests : Nat} {arrived : List (List Handle × Push)}
    (hlater : (arrive heap network chunk).Becomes
      (KeepsRange (arrive heap network chunk) network.next.2 later) heap'
      (network.next.2.changes requests) arrived) :
    heap.Becomes (KeepsRange heap network (chunk :: later)) heap' (network.changes (requests + 1))
      ((chunk, p.pushOf heap chunk) :: arrived) := by
  rw [network.changes_succ]
  refine ((p.becomes_arrive heap network chunk).trans hlater).mono fun hrange => ?_
  rcases hrange with ⟨hchanges, harrived⟩
  rcases harrived haccepted with ⟨htaken, hrest⟩
  exact ⟨⟨hchanges, htaken⟩, hrest⟩

/-- The first chunk does not arrive. -/
theorem pushesTo_of_refused (hrefused : network.next.1.reply.isAccepted = false) :
    StopsAt network (chunk :: later) 0 ∧
      p.PushesTo timeout heap network (chunk :: later) 0
        (p.pushChunks timeout heap network (chunk :: later)) := by
  have hfirst := network.nth_zero
  rw [pushChunks_of_refused hrefused]
  refine ⟨⟨Nat.zero_le _, nofun, fun _ => ?_⟩, ?_, ?_, ?_, ?_⟩
  · rw [hfirst]
    exact hrefused
  · rw [if_pos (by simp), hfirst]
  · simp
  · intro i chunk' push hchunk hpush
    cases i with
    | zero =>
      cases hchunk
      cases hpush
      exact ⟨heap, rfl, .refl _ heap⟩
    | succ i => cases hpush
  · have hchanges := network.changes_succ 0
    have hnone : network.next.2.changes 0 = [] := rfl
    rw [hnone, List.append_nil] at hchanges
    show heap.Becomes _ (change heap network.next.1.changes) (network.changes 1) []
    rw [hchanges]
    exact (becomes_change heap network.next.1.changes).mono And.left

/-- The first chunk arrives, and the later part of the push comes to something. -/
theorem pushesTo_of_accepted (haccepted : network.next.1.reply.isAccepted = true) {k : Nat}
    (hstops : StopsAt network.next.2 later k)
    (hpushes : p.PushesTo timeout (arrive heap network chunk) network.next.2 later k
      (p.pushChunks timeout (arrive heap network chunk) network.next.2 later)) :
    StopsAt network (chunk :: later) (k + 1) ∧
      p.PushesTo timeout heap network (chunk :: later) (k + 1)
        (p.pushChunks timeout heap network (chunk :: later)) := by
  rw [pushChunks_of_accepted haccepted]
  refine ⟨⟨Nat.succ_le_succ hstops.le, fun i hi => ?_, fun hk => ?_⟩, ?_, ?_, ?_, ?_⟩
  · cases i with
    | zero =>
      rw [network.nth_zero]
      exact haccepted
    | succ i =>
      rw [network.nth_succ]
      exact hstops.arrived i (Nat.lt_of_succ_lt_succ hi)
  · rw [network.nth_succ]
    exact hstops.fails (Nat.lt_of_succ_lt_succ hk)
  · simp only [hpushes.result, network.nth_succ, List.length_cons, Nat.add_lt_add_iff_right]
  · simp only [List.length_cons, hpushes.length_sent, Nat.add_min_add_right]
  · intro i chunk' push hchunk hpush
    cases i with
    | zero =>
      cases hchunk
      cases hpush
      exact ⟨heap, rfl, .refl _ heap⟩
    | succ i =>
      rcases hpushes.sent hchunk hpush with ⟨seen, hseen, hbecomes⟩
      exact ⟨seen, hseen, becomes_later haccepted hbecomes⟩
  · exact becomes_later haccepted hpushes.cells

end

/-- Chunks are sent up to the first that does not arrive. -/
theorem exists_pushesTo (p : Pusher) (timeout : Nat) (heap : Heap) (network : Network)
    (cs : List (List Handle)) :
    ∃ k, StopsAt network cs k ∧
      p.PushesTo timeout heap network cs k (p.pushChunks timeout heap network cs) := by
  induction cs generalizing heap network with
  | nil =>
    exact ⟨0, ⟨Nat.le_refl 0, nofun, nofun⟩, rfl, rfl, nofun, .refl _ heap⟩
  | cons chunk later ih =>
    cases hreply : network.next.1.reply.isAccepted with
    | false => exact ⟨0, pushesTo_of_refused hreply⟩
    | true =>
      rcases ih (arrive heap network chunk) network.next.2 with ⟨k, hstops, hpushes⟩
      exact ⟨k + 1, pushesTo_of_accepted hreply hstops hpushes⟩

/-- A push succeeds if all chunks arrive, and only then. -/
theorem PushesTo.result_eq_ok_iff {p : Pusher} {timeout : Nat} {heap : Heap} {network : Network}
    {cs : List (List Handle)} {k : Nat} {pushed : Pushed}
    (hpushes : p.PushesTo timeout heap network cs k pushed) (hstops : StopsAt network cs k) :
    pushed.result = .ok () ↔ k = cs.length := by
  rw [hpushes.result]
  by_cases hlt : k < cs.length
  · rcases p.outcome_of_refused timeout (hstops.fails hlt) with ⟨e, houtcome⟩
    rw [if_pos hlt, houtcome]
    constructor
    · intro h
      cases h
    · intro h
      exact absurd h (Nat.ne_of_lt hlt)
  · rw [if_neg hlt]
    exact ⟨fun _ => Nat.le_antisymm hstops.le (Nat.le_of_not_lt hlt), fun _ => rfl⟩

/-- A pusher that was made sends at least one metric at a time. -/
theorem make_eq_ok {server : String} {signer : Signer} {size : Nat} {realIp : Option String}
    {p : Pusher} (h : make server signer size realIp = .ok p) :
    p = ⟨p.address, signer, max size 1, realIp⟩ := by
  unfold make at h
  cases haddress : Agent.updatesAddress server with
  | error e =>
    rw [haddress] at h
    cases h
  | ok address =>
    rw [haddress] at h
    cases h
    rfl

/-- Any list of cells, in chunks of any size, whatever becomes of each request and whatever
others do to the cells meanwhile.  Chunks are sent up to the first that does not arrive,
which decides the outcome; counters give up what has arrived, and no more. -/
theorem pushes_to_first_failure {server : String} {signer : Signer} {size : Nat}
    {realIp : Option String} {p : Pusher} (hmake : make server signer size realIp = .ok p)
    (timeout : Nat) (heap : Heap) (network : Network) (hs : List Handle) :
    let full := max size 1
    let cs := chunks full hs
    let pushed := p.push timeout heap network hs
    (p.signer = signer ∧ p.realIp = realIp) ∧
    (cs.flatten = hs ∧ cs.map List.length = List.replicate (hs.length / full) full ++
      if hs.length % full = 0 then [] else [hs.length % full]) ∧
    (∃ k, StopsAt network cs k ∧ p.PushesTo timeout heap network cs k pushed ∧
      (pushed.result = .ok () ↔ k = cs.length)) ∧
    (hs = [] → pushed = ⟨.ok (), heap, [], network, 0⟩) := by
  intro full cs pushed
  have hp := make_eq_ok hmake
  have hfull : 0 < full := Nat.lt_of_lt_of_le Nat.zero_lt_one (Nat.le_max_right size 1)
  have hpush : pushed = p.pushChunks timeout heap network cs := by
    show p.pushChunks timeout heap network (chunks p.batchSize hs) = _
    rw [hp]
  refine ⟨⟨congrArg Pusher.signer hp, congrArg Pusher.realIp hp⟩,
    ⟨Agent.flatten_chunks full hs, Agent.map_length_chunks hfull hs⟩, ?_, ?_⟩
  · rcases p.exists_pushesTo timeout heap network cs with ⟨k, hstops, hpushes⟩
    rw [hpush]
    exact ⟨k, hstops, hpushes, hpushes.result_eq_ok_iff hstops⟩
  · intro hnil
    have hnone : cs = [] := by
      show chunks full hs = []
      rw [hnil, chunks]
    rw [hpush, hnone]
    rfl

/-- A counter twice in the first chunk and once in the second, with a gauge.  It is added to
while each request is under way, and the second does not arrive: of what it was, and was
added, only what the first chunk carried is gone. -/
theorem pushes_to_first_failure_of_repeated_handle :
    let polls : Handle := ⟨0⟩
    let load : Handle := ⟨1⟩
    let heap : Heap := ⟨[⟨"polls", .total (.clamp 5)⟩, ⟨"load", .reading (.zero true)⟩]⟩
    let network : Network :=
      ⟨[⟨[(polls, .total (.clamp 3))], .answered 200 ""⟩,
        ⟨[(polls, .total (.clamp 4)), (load, .reading (.zero false))], .answered 500 "full"⟩],
        .silent⟩
    let hs := [polls, polls, load, polls]
    let p : Pusher := ⟨"http://localhost/updates", .disabled, 2, none⟩
    let pushed := p.push 1000 heap network hs
    make "localhost" .disabled 2 none = .ok p ∧ KeepsRange heap network (chunks 2 hs) ∧
      (∃ k, StopsAt network (chunks 2 hs) k ∧
        p.PushesTo 1000 heap network (chunks 2 hs) k pushed) ∧
      pushed.sent.length = 2 ∧ pushed.heap.amount polls = 5 + 3 + 4 - 5 - 5 ∧
      pushed.heap.get load = ⟨"load", .reading (.zero false)⟩ := by
  intro polls load heap network hs p pushed
  have hmake : make "localhost" .disabled 2 none = .ok p := rfl
  have hchunks : chunks 2 hs = [[polls, polls], [load, polls]] := by
    simp [chunks, hs]
  have hkeeps : KeepsRange heap network (chunks 2 hs) := by
    have hchanged : ChangesExactly heap network.next.1.changes := And.intro rfl trivial
    have harrived : World.TakesAwayExactly (change heap network.next.1.changes)
        ([polls, polls].zip ([polls, polls].map heap.get)) :=
      And.intro rfl (And.intro rfl trivial)
    have hfull : network.next.2.next.1.reply.isAccepted = false := rfl
    have hlater : KeepsRange (arrive heap network [polls, polls]) network.next.2
        [[load, polls]] :=
      And.intro (And.intro rfl (And.intro trivial trivial)) fun haccepted =>
        Bool.noConfusion (hfull.symm.trans haccepted)
    rw [hchunks]
    exact And.intro hchanged fun _ => And.intro harrived hlater
  rcases pushes_to_first_failure hmake 1000 heap network hs with
    ⟨-, -, ⟨k, hstops, hpushes, -⟩, -⟩
  exact ⟨hmake, hkeeps, ⟨k, hstops, hpushes⟩, by decide +kernel⟩

end Agent.Pusher

end MetricRelay
