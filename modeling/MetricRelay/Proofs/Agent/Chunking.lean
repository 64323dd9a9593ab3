import MetricRelay.Proofs.Agent.Delivery
import MetricRelay.Proofs.Agent.Sending
import MetricRelay.Proofs.Http.Alike

/-!
# The size of chunks

A push sends its metrics in chunks, and each chunk is read only when the one before it
has arrived.  If all of them are taken in and nothing else happens meanwhile, it makes
no difference how large they are: a counter is in one chunk only, so that taking away
what has arrived leaves later chunks what they are, and the server adds messages one
after the other, whichever request they come in.

Main definitions:

- `Heap.CountersApart`: no counter is twice in a list of cells.
- `Pusher.Relays`: a network that gives a push what a server answers to it.
- `Server.SameStore`: two servers whose stores are the same.

Main results:

- `map_length_chunks`: the sizes of all chunks.
- `Pusher.push_of_relays`: all that a push does if it is taken in.
- `Server.leaves_run_of_accepted`: what a run of accepted requests comes to.
- `Pusher.chunks_transparently`: two pushes with chunks of two sizes.
-/

namespace MetricRelay

open Http (Request Response)

/-! ## Chunks -/

namespace Agent

section Chunks

variable {α : Type} {size : Nat}

/-- All chunks are full, but for one of what is left at the end. -/
theorem map_length_chunks (hsize : 0 < size) (l : List α) :
    (chunks size l).map List.length =
      List.replicate (l.length / size) size ++
        if l.length % size = 0 then [] else [l.length % size] := by
  fun_induction chunks size l with
  | case1 => simp
  | case2 x r ih =>
    rw [List.map_cons, ih, List.length_cons, List.length_cons, List.length_take, List.length_drop]
    by_cases hfull : size ≤ r.length + 1
    · have hlength : r.length + 1 = (r.length - (size - 1)) + size := by omega
      have hfirst : min (size - 1) r.length + 1 = size := by omega
      rw [hlength, Nat.add_div_right _ hsize, Nat.add_mod_right, hfirst, List.replicate_succ,
        List.cons_append]
    · have hrest : r.length - (size - 1) = 0 := by omega
      have hfirst : min (size - 1) r.length + 1 = r.length + 1 := by omega
      have hmod : (r.length + 1) % size = r.length + 1 := Nat.mod_eq_of_lt (by omega)
      rw [hrest, Nat.zero_div, Nat.zero_mod, if_pos rfl, Nat.div_eq_of_lt (by omega), hmod, hfirst,
        if_neg (Nat.succ_ne_zero _)]
      rfl

/-- There are as many chunks as it takes, and no more. -/
theorem length_chunks (hsize : 0 < size) (l : List α) :
    (chunks size l).length = (l.length + size - 1) / size := by
  have hlengths := congrArg List.length (map_length_chunks hsize l)
  have hsplit := Nat.div_add_mod l.length size
  have hlt := Nat.mod_lt l.length hsize
  rw [List.length_map, List.length_append, List.length_replicate] at hlengths
  rw [hlengths]
  by_cases hmod : l.length % size = 0
  · rw [if_pos hmod, List.length_nil, Nat.add_zero]
    refine (Nat.div_eq_of_lt_le ?_ ?_).symm
    · rw [Nat.mul_comm]
      omega
    · rw [Nat.succ_mul, Nat.mul_comm]
      omega
  · rw [if_neg hmod, List.length_singleton]
    refine (Nat.div_eq_of_lt_le ?_ ?_).symm
    · rw [Nat.succ_mul, Nat.mul_comm]
      omega
    · rw [Nat.succ_mul, Nat.succ_mul, Nat.mul_comm]
      omega

end Chunks

end Agent

/-! ## Cells -/

/-- To take away all that a metric shows is to flush it. -/
theorem Metric.acknowledge_value (m : Metric) : m.acknowledge m.value = m.flush := by
  cases m with
  | mk name v =>
    cases v with
    | total n =>
      have hzero : n.sub n = .zero := by
        unfold Count.sub
        rw [Int.sub_self]
        rfl
      show (⟨name, .total (n.sub n)⟩ : Metric) = ⟨name, .total .zero⟩
      rw [hzero]
    | reading x => rfl

/-- A metric that is no counter has nothing to take away. -/
theorem Metric.acknowledge_of_gauge {m : Metric} (h : m.kind ≠ .counter) (sent : Value) :
    m.acknowledge sent = m := by
  cases m with
  | mk name v =>
    cases v with
    | total n => exact absurd rfl h
    | reading x => rfl

/-- A metric that is no counter has nothing to flush. -/
theorem Metric.flush_of_gauge {m : Metric} (h : m.kind ≠ .counter) : m.flush = m := by
  cases m with
  | mk name v =>
    cases v with
    | total n => exact absurd rfl h
    | reading x => rfl

namespace Heap

variable {heap : Heap} {h : Handle} {hs : List Handle}

/-- A flush is seen in its own cell and in no other. -/
theorem get_flush (heap : Heap) (h' h : Handle) :
    (heap.flush h').get h = if h = h' then (heap.get h).flush else heap.get h := by
  unfold flush
  by_cases heq : h = h'
  · subst heq
    rw [if_pos rfl]
    by_cases hvalid : h.index < heap.size
    · rw [get_set heap h h _ hvalid, if_pos rfl]
    · have hsame := heap.set_of_size_le (Nat.le_of_not_lt hvalid) (heap.get h).flush
      have hblank : heap.get h = blank := by
        unfold get get?
        rw [List.getElem?_eq_none (Nat.le_of_not_lt hvalid)]
        rfl
      rw [hsame, hblank]
      rfl
  · rw [if_neg heq, get_set_of_ne heap (Ne.symm heq)]

/-- Start the totals of several cells again at zero. -/
def flushAll (heap : Heap) (hs : List Handle) : Heap := hs.foldl flush heap

/-- After several cells were flushed these are flushed once, however often they were named.
-/
theorem get_flushAll (heap : Heap) (hs : List Handle) (h : Handle) :
    (heap.flushAll hs).get h = if h ∈ hs then (heap.get h).flush else heap.get h := by
  induction hs generalizing heap with
  | nil => rfl
  | cons h' hs ih =>
    show ((heap.flush h').flushAll hs).get h = _
    have htwice (m : Metric) : m.flush.flush = m.flush := by
      cases m with
      | mk name v => cases v <;> rfl
    rw [ih, get_flush]
    by_cases heq : h = h'
    · subst heq
      rw [if_pos rfl, if_pos List.mem_cons_self, htwice, ite_self]
    · rw [if_neg heq]
      simp only [List.mem_cons, heq, false_or]

/-- No counter is twice in a list of cells. -/
def CountersApart (heap : Heap) (hs : List Handle) : Prop :=
  hs.Pairwise fun h h' => (heap.get h).kind = .counter → h ≠ h'

/-- Where counters are apart in two lists together, they are so in each, and no counter is
in both. -/
theorem CountersApart.append {hs' : List Handle} (hapart : heap.CountersApart (hs ++ hs')) :
    heap.CountersApart hs ∧ heap.CountersApart hs' ∧
      ∀ h ∈ hs, ∀ h' ∈ hs', (heap.get h).kind = .counter → h ≠ h' :=
  List.pairwise_append.1 hapart

/-- Whether counters are apart depends on the keys of the cells only. -/
theorem CountersApart.congr {heap' : Heap} (hapart : heap.CountersApart hs)
    (hkey : ∀ h, (heap'.get h).key = (heap.get h).key) : heap'.CountersApart hs := by
  refine hapart.imp fun hne hcounter => hne ?_
  rw [← hcounter]
  exact congrArg Key.kind (hkey _).symm

/-- Cells keep their keys when they are flushed. -/
theorem key_get_flushAll (heap : Heap) (hs : List Handle) (h : Handle) :
    ((heap.flushAll hs).get h).key = (heap.get h).key := by
  rw [get_flushAll]
  split
  · exact Metric.key_flush _
  · rfl

/-- What was read from a cell is taken away from it: nothing is left of a counter, and
a gauge is as it was. -/
theorem acknowledge_eq_flush {m : Metric} (hkey : m.key = (heap.get h).key)
    (hcounter : m.kind = .counter → heap.get h = m) : heap.acknowledge h m.value = heap.flush h := by
  unfold acknowledge flush
  congr 1
  by_cases hkind : m.kind = .counter
  · rw [hcounter hkind, Metric.acknowledge_value]
  · have hsame : m.kind = (heap.get h).kind := congrArg Key.kind hkey
    have hgauge : (heap.get h).kind ≠ .counter := fun heq => hkind (hsame.trans heq)
    rw [Metric.acknowledge_of_gauge hgauge, Metric.flush_of_gauge hgauge]

end Heap

namespace Agent

namespace Pusher

/-- What was read from cells and has arrived leaves them at zero, if no counter was read
twice.  The cells may have been acknowledged in part before; only counters that are
still to come have to show what was read. -/
theorem acknowledge_read {heap₀ heap : Heap} {hs : List Handle}
    (hkey : ∀ h, (heap₀.get h).key = (heap.get h).key)
    (hshow : ∀ h ∈ hs, (heap₀.get h).kind = .counter → heap.get h = heap₀.get h)
    (hapart : heap₀.CountersApart hs) :
    acknowledge heap (hs.zip (hs.map heap₀.get)) = heap.flushAll hs := by
  induction hs generalizing heap with
  | nil => rfl
  | cons h hs ih =>
    rcases List.pairwise_cons.1 hapart with ⟨hfirst, hrest⟩
    have hone := Heap.acknowledge_eq_flush (hkey h) (hshow h List.mem_cons_self)
    have hkey' (x : Handle) : (heap₀.get x).key = ((heap.flush h).get x).key :=
      (hkey x).trans (heap.key_get_flush h x).symm
    have hshow' : ∀ x ∈ hs, (heap₀.get x).kind = .counter → (heap.flush h).get x = heap₀.get x := by
      intro x hx hcounter
      have hne : x ≠ h := by
        rintro rfl
        exact hfirst x hx hcounter rfl
      rw [heap.get_flush, if_neg hne]
      exact hshow x (List.mem_cons_of_mem _ hx) hcounter
    show acknowledge (heap.acknowledge h (heap₀.get h).value) (hs.zip (hs.map heap₀.get)) =
      (heap.flush h).flushAll hs
    rw [hone, ih hkey' hshow' hrest]

/-! ## A push that is taken in -/

/-- The requests of a push, as they reach the server. -/
def requests (p : Pusher) (sent : List Push) : List Request :=
  sent.map fun push => p.request push.messages

/-- What happens to a request if nothing else does: its answer arrives. -/
def relay (response : Response) : Exchange := ⟨[], .answered response.status response.body⟩

/-- While requests are sent to a server, they are answered by it and nothing else
happens; and it accepts all of them. -/
structure Relays (s : Server) (host : Host) (network : Network) (rs : List Request) : Prop where
  exchanges : network.exchanges = (s.run host rs).1.map relay
  accepts : ∀ response ∈ (s.run host rs).1, response.status = 200

/-- The first request of a push is accepted, and the others are answered after it. -/
theorem Relays.first {p : Pusher} {s : Server} {host : Host} {network : Network} {push : Push}
    {sent : List Push} (h : Relays s host network (p.requests (push :: sent))) :
    ∃ response rest s' host', response.status = 200 ∧
      network.exchanges = relay response :: rest ∧
      Relays s' host' { network with exchanges := rest } (p.requests sent) :=
  ⟨_, _, _, _, h.accepts _ List.mem_cons_self, h.exchanges, rfl,
    fun r hr => h.accepts r (List.mem_cons_of_mem _ hr)⟩

variable {p : Pusher} {timeout : Nat} {heap : Heap} {network : Network}

/-- The first chunk is sent whatever becomes of it. -/
theorem exists_sent_eq (p : Pusher) (timeout : Nat) (heap : Heap) (network : Network)
    (chunk : List Handle) (later : List (List Handle)) :
    ∃ sent, (p.pushChunks timeout heap network (chunk :: later)).sent =
      p.pushOf heap chunk :: sent := by
  rw [pushChunks_cons]
  cases p.outcome timeout network.next.1.reply with
  | error e => exact ⟨[], rfl⟩
  | ok u => exact ⟨_, rfl⟩

/-- A chunk that has arrived is taken away, and the push goes on. -/
theorem pushChunks_of_relay {response : Response} (hstatus : response.status = 200)
    {exchanges : List Exchange} (hnetwork : network.exchanges = relay response :: exchanges)
    {chunk : List Handle} (hapart : heap.CountersApart chunk) (later : List (List Handle)) :
    p.pushChunks timeout heap network (chunk :: later) =
      let pushed := p.pushChunks timeout (heap.flushAll chunk)
        { network with exchanges := exchanges } later
      { pushed with sent := p.pushOf heap chunk :: pushed.sent } := by
  have hnext : network.next = (relay response, { network with exchanges := exchanges }) := by
    unfold Network.next
    rw [hnetwork]
  have houtcome : p.outcome timeout (relay response).reply = .ok () := by
    show (if response.status = 200 then _ else _) = _
    rw [if_pos hstatus]
  have hread : acknowledge heap (chunk.zip (chunk.map heap.get)) = heap.flushAll chunk :=
    acknowledge_read (fun _ => rfl) (fun _ _ _ => rfl) hapart
  rw [pushChunks_cons]
  simp only [hnext, houtcome]
  have hchange : change heap (relay response).changes = heap := rfl
  rw [hchange, hread]

/-- A chunk that is taken in changes nothing for the later ones. -/
theorem pushOf_flushAll {chunk : List Handle} {later : List (List Handle)}
    (hapart : heap.CountersApart (chunk :: later).flatten) :
    later.map (p.pushOf (heap.flushAll chunk)) = later.map (p.pushOf heap) := by
  rcases hapart.append with ⟨-, -, hacross⟩
  refine List.map_congr_left fun c hc => ?_
  have hread : c.map (heap.flushAll chunk).get = c.map heap.get := by
    refine List.map_congr_left fun h hh => ?_
    rw [Heap.get_flushAll]
    split
    · rename_i hmem
      refine Metric.flush_of_gauge fun hcounter => ?_
      exact hacross h hmem h (List.mem_flatten_of_mem hc hh) hcounter rfl
    · rfl
  unfold pushOf
  rw [hread]

/-- Chunks all of which are taken in leave their cells flushed, and each carries what the
cells showed at first. -/
theorem pushChunks_of_relays {s : Server} {host : Host} {cs : List (List Handle)}
    (hapart : heap.CountersApart cs.flatten)
    (hrelays : Relays s host network (p.requests (p.pushChunks timeout heap network cs).sent)) :
    (p.pushChunks timeout heap network cs).result = .ok () ∧
      (p.pushChunks timeout heap network cs).heap = heap.flushAll cs.flatten ∧
      (p.pushChunks timeout heap network cs).sent = cs.map (p.pushOf heap) := by
  induction cs generalizing s host heap network with
  | nil => exact ⟨rfl, rfl, rfl⟩
  | cons chunk later ih =>
    rcases p.exists_sent_eq timeout heap network chunk later with ⟨sent, hsent⟩
    rw [hsent] at hrelays
    rcases hrelays.first with ⟨response, rest, s', host', hstatus, hexchanges, hrest⟩
    rcases hapart.append with ⟨hchunk, hlater, -⟩
    -- The first request is accepted, and so the push goes on with the other answers.
    have hpush := @pushChunks_of_relay p timeout heap _ _ hstatus _ hexchanges _ hchunk later
    have hsent' : (p.pushChunks timeout (heap.flushAll chunk) { network with exchanges := rest }
        later).sent = sent :=
      (List.cons.inj ((congrArg Pushed.sent hpush).symm.trans hsent)).2
    rw [← hsent'] at hrest
    have hlater' := hlater.congr (heap.key_get_flushAll chunk)
    rcases ih hlater' hrest with ⟨hresult, hheap, hmessages⟩
    rw [hpush]
    refine ⟨hresult, hheap.trans List.foldl_append.symm, ?_⟩
    exact congrArg (p.pushOf heap chunk :: ·) (hmessages.trans (pushOf_flushAll hapart))

/-- All that a push does if it is taken in: its cells are flushed, and its chunks carry
what the cells showed at first. -/
theorem push_of_relays {s : Server} {host : Host} {hs : List Handle}
    (hapart : heap.CountersApart hs)
    (hrelays : Relays s host network (p.requests (p.push timeout heap network hs).sent)) :
    (p.push timeout heap network hs).result = .ok () ∧
      (p.push timeout heap network hs).heap = heap.flushAll hs ∧
      (p.push timeout heap network hs).sent = (chunks p.batchSize hs).map (p.pushOf heap) := by
  have hflatten := flatten_chunks p.batchSize hs
  rw [← hflatten] at hapart
  have hpush := pushChunks_of_relays hapart hrelays
  rw [hflatten] at hpush
  exact hpush

/-- A push whose chunks would be accepted sends them. -/
theorem pushChunks_of_accepts {s : Server} {host : Host} {cs : List (List Handle)}
    (hapart : heap.CountersApart cs.flatten)
    (hrelays : Relays s host network (p.requests (cs.map (p.pushOf heap)))) :
    (p.pushChunks timeout heap network cs).sent = cs.map (p.pushOf heap) := by
  induction cs generalizing s host heap network with
  | nil => rfl
  | cons chunk later ih =>
    rcases hrelays.first with ⟨response, rest, s', host', hstatus, hexchanges, hrest⟩
    rcases hapart.append with ⟨hchunk, hlater, -⟩
    have hlater' := hlater.congr (heap.key_get_flushAll chunk)
    rw [← pushOf_flushAll hapart] at hrest
    rw [pushChunks_of_relay hstatus hexchanges hchunk]
    exact congrArg (p.pushOf heap chunk :: ·) ((ih hlater' hrest).trans (pushOf_flushAll hapart))

end Pusher

end Agent

/-! ## The server -/

/-- What accepted requests do is what their messages come to. -/
theorem Board.afterAll_of_accepted {rs : List Request} {answers : List Response}
    (hlength : answers.length = rs.length) (haccepts : ∀ a ∈ answers, a.status = 200)
    (board : Board) :
    board.afterAll (rs.zip answers) = board.takeAll (rs.flatMap Request.updates) := by
  induction rs generalizing answers board with
  | nil => rfl
  | cons r rs ih =>
    cases answers with
    | nil => cases hlength
    | cons a answers =>
      have hone : board.after r a.status = board.takeAll r.updates :=
        if_pos (haccepts a List.mem_cons_self)
      rw [List.zip_cons_cons, afterAll_cons, hone, List.flatMap_cons,
        ih (Nat.succ.inj hlength) fun x hx => haccepts x (List.mem_cons_of_mem _ hx)]
      exact List.foldl_append.symm

/-- In asynchronous mode an update only changes the memory and its cells. -/
theorem Backed.add_asynchronous {b : Backed} (hmode : b.mode = .asynchronous) (host : Host)
    (hs : List Handle) :
    (b.add host hs).2 =
      ({ b with memory := (b.memory.add host.heap hs).2.2 },
        { host with heap := (b.memory.add host.heap hs).2.1 }) := by
  unfold add
  rw [hmode]

namespace Server

/-- A server that has not changed but for its memory, on a disk that has not changed. -/
structure SameButMemory (s : Server) (host : Host) (s' : Server) (host' : Host) : Prop where
  server : ∃ memory, s' = s.withStore { s.store with memory := memory }
  disk : host'.disk = host.disk

section

variable {s : Server} {host : Host} {rs : List Request}

/-- Messages are taken by the memory alone. -/
theorem sameButMemory_update (hmode : s.store.mode = .asynchronous) (host : Host)
    (messages : List Message) :
    s.SameButMemory host { s with service := (s.service.update host messages).2.1 }
      (s.service.update host messages).2.2 := by
  unfold Service.update
  cases (s.service.signer.fromMessages messages).mapError Failure.asConversion with
  | error e => exact ⟨⟨s.store.memory, rfl⟩, rfl⟩
  | ok metrics =>
    have hleft := Backed.add_asynchronous hmode (host.allocAll metrics).2 (host.allocAll metrics).1
    rcases hadd : Storage.add s.service.store (host.allocAll metrics).2
      (host.allocAll metrics).1 with ⟨result, store, host'⟩
    have hadd' : s.store.add (host.allocAll metrics).2 (host.allocAll metrics).1 =
        (result, store, host') := hadd
    rw [hadd', Prod.mk.injEq] at hleft
    rcases hleft with ⟨rfl, rfl⟩
    simp only [hadd]
    cases result with
    | error e => exact ⟨⟨_, rfl⟩, rfl⟩
    | ok answers => exact ⟨⟨_, rfl⟩, rfl⟩

/-- In asynchronous mode requests only change the memory. -/
theorem sameButMemory_run (hmode : s.store.mode = .asynchronous) (host : Host) (rs : List Request) :
    s.SameButMemory host (s.run host rs).2.1 (s.run host rs).2.2 := by
  refine run_keeps (P := s.SameButMemory host) ⟨⟨s.store.memory, rfl⟩, rfl⟩ ?_ rs
  rintro s' host' ⟨⟨memory, rfl⟩, hdisk⟩ messages
  have hmode' : (s.withStore { s.store with memory := memory }).store.mode = .asynchronous := hmode
  rcases sameButMemory_update hmode' host' messages with ⟨⟨memory', hserver⟩, hdisk'⟩
  exact ⟨⟨memory', hserver⟩, hdisk'.trans hdisk⟩

/-- What a server comes to by accepted requests is what their messages come to. -/
theorem leaves_run_of_accepted (h : s.Serves host)
    (haccepts : ∀ a ∈ (s.run host rs).1, a.status = 200) :
    s.Leaves (s.run host rs).2 ((s.board host).takeAll (rs.flatMap Request.updates)) := by
  have hrun := leaves_run h rs
  rw [Board.afterAll_of_accepted (length_run s host rs) haccepts] at hrun
  exact hrun

end

/-- Two servers have the same store: their memories show the same values, also as a
snapshot, and their backups are the same, on disks that are. -/
structure SameStore (s : Server) (host : Host) (s' : Server) (host' : Host) : Prop where
  board : s.board host = s'.board host'
  snapshot : s.store.memory.snapshot host.heap = s'.store.memory.snapshot host'.heap
  backup : s.store.backup = s'.store.backup
  mode : s.store.mode = s'.store.mode
  disk : host.disk = host'.disk

/-- A server in asynchronous mode, with each metric in a cell of its own under a key of
its own. -/
def Stores (s : Server) (host : Host) : Prop := ∃ c, s.store.Serves host.heap c ∧ c.Distinct

/-- A server whose store is known serves. -/
theorem Stores.serves {s : Server} {host : Host} (h : s.Stores host) : s.Serves host := by
  rcases h with ⟨c, hserves, -⟩
  exact ⟨c, hserves⟩

/-- A server that stores is in asynchronous mode. -/
theorem Stores.mode {s : Server} {host : Host} (h : s.Stores host) :
    s.store.mode = .asynchronous := by
  rcases h with ⟨c, hserves, -⟩
  exact hserves.mode

/-- Requests leave its store known. -/
theorem Stores.run {s : Server} {host : Host} (h : s.Stores host) (rs : List Request) :
    (s.run host rs).2.1.Stores (s.run host rs).2.2 := by
  refine run_keeps h ?_ rs
  rintro s host ⟨c, hserves, hdistinct⟩ messages
  cases hmetrics : s.service.signer.fromMessages messages with
  | error e =>
    rw [Service.update_of_error hmetrics]
    exact ⟨c, hserves, hdistinct⟩
  | ok metrics =>
    rcases Service.update_of_ok hserves hmetrics with ⟨heap, memory, hserves', hupdate⟩
    rw [hupdate]
    exact ⟨_, hserves', Content.Distinct.add hdistinct metrics⟩

/-- Servers in asynchronous mode that show the same values show the same snapshot. -/
theorem Stores.snapshot_eq {s s' : Server} {host host' : Host} (h : s.Stores host)
    (h' : s'.Stores host') (hboard : s.board host = s'.board host') :
    s.store.memory.snapshot host.heap = s'.store.memory.snapshot host'.heap := by
  rcases h with ⟨c, hserves, hdistinct⟩
  rcases h' with ⟨c', hserves', hdistinct'⟩
  rw [board_eq hserves, board_eq hserves'] at hboard
  have hsame : c.Same c' := fun key => congrFun hboard key
  rw [hserves.memory.snapshot_eq, hserves'.memory.snapshot_eq,
    hsame.ofMetrics_eq hdistinct hdistinct']

/-- Accepted requests with the same messages come to the same store. -/
theorem sameStore_run {s : Server} {host : Host} (h : s.Stores host) {rs rs' : List Request}
    (haccepts : ∀ a ∈ (s.run host rs).1, a.status = 200)
    (haccepts' : ∀ a ∈ (s.run host rs').1, a.status = 200)
    (hmessages : rs.flatMap Request.updates = rs'.flatMap Request.updates) :
    (s.run host rs).2.1.SameStore (s.run host rs).2.2 (s.run host rs').2.1
      (s.run host rs').2.2 := by
  have hleaves := leaves_run_of_accepted h.serves haccepts
  have hleaves' := leaves_run_of_accepted h.serves haccepts'
  have hboard := hleaves.board.trans ((congrArg _ hmessages).trans hleaves'.board.symm)
  rcases sameButMemory_run h.mode host rs with ⟨⟨memory, hserver⟩, hdisk⟩
  rcases sameButMemory_run h.mode host rs' with ⟨⟨memory', hserver'⟩, hdisk'⟩
  refine ⟨hboard, (h.run rs).snapshot_eq (h.run rs') hboard, ?_, ?_, hdisk.trans hdisk'.symm⟩
  · rw [hserver, hserver']
    rfl
  · rw [hserver, hserver']
    rfl

end Server

/-! ## Two pushes -/

namespace Agent.Pusher

/-- All that a push of some cells does if each of its chunks is taken in: it sends what
the cells show, in their order and in full chunks but for the last one, and only
counters are changed. -/
structure SendsAll (p : Pusher) (heap : Heap) (hs : List Handle) (pushed : Pushed) : Prop where
  result : pushed.result = .ok ()
  messages : (pushed.sent.map Push.messages).flatten = (hs.map heap.get).map p.signer.message
  requests : pushed.sent.length = (hs.length + p.batchSize - 1) / p.batchSize
  sizes : pushed.sent.map (fun push => push.messages.length) =
    List.replicate (hs.length / p.batchSize) p.batchSize ++
      if hs.length % p.batchSize = 0 then [] else [hs.length % p.batchSize]
  counters : ∀ h ∈ hs, ∀ name n, heap.get h = ⟨name, .total n⟩ →
    pushed.heap.get h = ⟨name, .total .zero⟩
  gauges : ∀ h name x, heap.get h = ⟨name, .reading x⟩ → pushed.heap.get h = ⟨name, .reading x⟩
  others : ∀ h, h ∉ hs → pushed.heap.get h = heap.get h

section

variable {p : Pusher} {timeout : Nat} {heap : Heap} {network : Network} {s : Server} {host : Host}
  {hs : List Handle}

/-- All messages of some chunks are those of their cells, in order. -/
theorem flatten_messages (p : Pusher) (heap : Heap) (cs : List (List Handle)) :
    ((cs.map (p.pushOf heap)).map Push.messages).flatten =
      (cs.flatten.map heap.get).map p.signer.message := by
  induction cs with
  | nil => rfl
  | cons c cs ih =>
    rw [List.map_cons, List.map_cons, List.flatten_cons, ih, List.flatten_cons, List.map_append,
      List.map_append]
    rfl

/-- A push that is taken in sends all its cells. -/
theorem sendsAll_of_relays (hsize : 0 < p.batchSize) (hapart : heap.CountersApart hs)
    (hrelays : Relays s host network (p.requests (p.push timeout heap network hs).sent)) :
    p.SendsAll heap hs (p.push timeout heap network hs) := by
  rcases push_of_relays hapart hrelays with ⟨hresult, hheap, hsent⟩
  refine ⟨hresult, ?_, ?_, ?_, ?_, ?_, ?_⟩
  · rw [hsent, flatten_messages, flatten_chunks]
  · rw [hsent, List.length_map, length_chunks hsize]
  · rw [hsent, List.map_map, ← map_length_chunks hsize]
    refine List.map_congr_left fun c _ => ?_
    show ((c.map heap.get).map p.signer.message).length = c.length
    rw [List.length_map, List.length_map]
  · intro h hmem name n hget
    rw [hheap, Heap.get_flushAll, if_pos hmem, hget]
    rfl
  · intro h name x hget
    rw [hheap, Heap.get_flushAll, hget]
    exact ite_self _
  · intro h hmem
    rw [hheap, Heap.get_flushAll, if_neg hmem]

/-- The messages that reach the server are those of the push. -/
theorem flatMap_updates_requests (p : Pusher) (sent : List Push) :
    (p.requests sent).flatMap Request.updates =
      ((sent.map Push.messages).flatten).map Message.received := by
  induction sent with
  | nil => rfl
  | cons push sent ih =>
    show (p.request push.messages).updates ++ (p.requests sent).flatMap Request.updates = _
    rw [ih, p.updates_request, List.map_cons, List.flatten_cons, List.map_append]

end

/-- Two pushes of the same cells to the same server come to the same, but for where the
messages are cut into requests. -/
structure ChunksTransparently (p : Pusher) (size size' : Nat) (s : Server) (host : Host)
    (heap : Heap) (hs : List Handle) (pushed pushed' : Pushed) : Prop where
  first : { p with batchSize := size }.SendsAll heap hs pushed
  second : { p with batchSize := size' }.SendsAll heap hs pushed'
  heap : pushed.heap = pushed'.heap
  messages : (pushed.sent.map Push.messages).flatten = (pushed'.sent.map Push.messages).flatten
  store : (s.run host (p.requests pushed.sent)).2.1.SameStore
    (s.run host (p.requests pushed.sent)).2.2 (s.run host (p.requests pushed'.sent)).2.1
    (s.run host (p.requests pushed'.sent)).2.2

/-- The size of chunks makes no difference.  A list of cells in which no counter is
twice is pushed to a server in asynchronous mode, once in chunks of one size and once
in chunks of another, while nothing else happens, and all requests are accepted.  Then
both pushes leave the same cells and the same store, and have sent the same messages. -/
theorem chunks_transparently {p : Pusher} {size size' : Nat} (hsize : 1 ≤ size)
    (hsize' : 1 ≤ size') {s : Server} {host : Host} (hstores : s.Stores host) {heap : Heap}
    {hs : List Handle} (hapart : heap.CountersApart hs) (timeout timeout' : Nat)
    {network network' : Network}
    (hrelays : Relays s host network
      (p.requests ({ p with batchSize := size }.push timeout heap network hs).sent))
    (hrelays' : Relays s host network'
      (p.requests ({ p with batchSize := size' }.push timeout' heap network' hs).sent)) :
    p.ChunksTransparently size size' s host heap hs
      ({ p with batchSize := size }.push timeout heap network hs)
      ({ p with batchSize := size' }.push timeout' heap network' hs) := by
  have hfirst := sendsAll_of_relays (p := { p with batchSize := size }) hsize hapart hrelays
  have hsecond := sendsAll_of_relays (p := { p with batchSize := size' }) hsize' hapart hrelays'
  have hmessages := hfirst.messages.trans hsecond.messages.symm
  have hheap := (push_of_relays (p := { p with batchSize := size }) hapart hrelays).2.1
  have hheap' := (push_of_relays (p := { p with batchSize := size' }) hapart hrelays').2.1
  refine ⟨hfirst, hsecond, hheap.trans hheap'.symm, hmessages, ?_⟩
  refine Server.sameStore_run hstores hrelays.accepts hrelays'.accepts ?_
  rw [flatMap_updates_requests, flatMap_updates_requests, hmessages]

/-- Two counters of one name and a gauge that is there twice, in chunks of three and of
two. -/
theorem chunks_transparently_of_two_counters :
    let p : Pusher := ⟨"http://localhost:8080/updates", .disabled, 1, none⟩
    let s := Server.fresh Config.Server.default .disabled none
    let host := Host.ofDisk (.withDirectory [])
    let heap : Heap :=
      ⟨[⟨"polls", .total (.clamp 3)⟩, ⟨"load", .reading (.zero true)⟩,
        ⟨"polls", .total (.clamp 4)⟩]⟩
    let hs : List Handle := [⟨0⟩, ⟨1⟩, ⟨2⟩, ⟨1⟩]
    let network (size : Nat) : Network :=
      ⟨(s.run host (p.requests ((chunks size hs).map (p.pushOf heap)))).1.map relay, .silent⟩
    p.ChunksTransparently 3 2 s host heap hs
      ({ p with batchSize := 3 }.push 1000 heap (network 3) hs)
      ({ p with batchSize := 2 }.push 1000 heap (network 2) hs) := by
  intro p s host heap hs network
  have hstores : s.Stores host := by
    refine ⟨[], ⟨by decide, Memory.holds_empty _⟩, List.Pairwise.nil⟩
  have hapart : heap.CountersApart hs := by
    unfold Heap.CountersApart
    decide
  have hrelays (size : Nat) (haccepts : ∀ a ∈ (s.run host
      (p.requests ((chunks size hs).map (p.pushOf heap)))).1, a.status = 200) :
      Relays s host (network size)
        (p.requests ({ p with batchSize := size }.push 1000 heap (network size) hs).sent) := by
    have hrelays : Relays s host (network size)
        (p.requests ((chunks size hs).map (p.pushOf heap))) := ⟨rfl, haccepts⟩
    have hflat : heap.CountersApart (chunks size hs).flatten := by
      rw [flatten_chunks]
      exact hapart
    have hsent : ({ p with batchSize := size }.pushChunks 1000 heap (network size)
        (chunks size hs)).sent = (chunks size hs).map (p.pushOf heap) :=
      pushChunks_of_accepts hflat hrelays
    unfold push
    rw [hsent]
    exact ⟨rfl, haccepts⟩
  exact chunks_transparently (by decide) (by decide) hstores hapart 1000 1000
    (hrelays 3 (by decide +kernel)) (hrelays 2 (by decide +kernel))

end Agent.Pusher

end MetricRelay
