import MetricRelay.Proofs.Http.Server
import MetricRelay.Proofs.Store.Layers

/-!
# Servers that hold the same

What a server answers, other than to a ping, depends on whom it serves, how it
signs and what its memory holds, and in no way on its cells, the order of its keys
or its backup.  So two servers that hold the same give the same answers from then
on.

Main definitions:

- `Server.Alike`: two servers hold the same, sign alike and serve the same clients.

Main results:

- `Service.update_of_layers` and `Service.map_get_lookup`: what is taken and what is
  found, by the content of the memory.
- `Server.answer_keeps` and `Server.run_keeps`: what all updates keep, all requests and
  all runs keep.
- `Server.Alike.answer` and `Server.Alike.run`: the same responses.
-/

namespace MetricRelay

open Http (Request Response Target)

/-! ## Services -/

namespace Service

variable {s : Service Backed} {host : Host} {c d : Content}

/-- Messages that can be understood are taken, in synchronous mode by both layers. -/
theorem update_of_layers (h : s.store.Layers host c d) {messages : List Message}
    {metrics : List Metric} (hmetrics : s.signer.fromMessages messages = .ok metrics) :
    ∃ b' host', s.update host messages =
        (.ok ((Content.add metrics c).1.map s.signer.message), { s with store := b' }, host') ∧
      b'.Layers host' (Content.add metrics c).2
        (s.store.mode.written (Content.add metrics d).2 d) ∧ b'.mode = s.store.mode := by
  rcases h.allocAll metrics with ⟨hlayers, hfresh⟩
  have hgiven : (host.allocAll metrics).2.getAll (host.allocAll metrics).1 = metrics :=
    Session.getAll_allocAll host metrics
  have hfinite : ∀ n ∈ (host.allocAll metrics).2.getAll (host.allocAll metrics).1,
      n.value.isFinite = true := by
    rw [hgiven]
    exact Signer.isFinite_of_fromMessages hmetrics
  rcases hlayers.add hfresh hfinite with ⟨answers, b', host', hadd, hlayers', hanswers, hmode⟩
  rw [hgiven] at hlayers' hanswers
  exact ⟨b', host', update_of_add hmetrics hadd hanswers, hlayers', hmode⟩

/-- What a question finds is what the memory holds. -/
theorem map_get_lookup (h : Memory.Holds host.heap s.store.memory c) (query : Message) :
    (s.lookup host query).1.map host.heap.get =
      query.identity.mapError Failure.asConversion >>= c.get := by
  cases hquery : query.identity with
  | error e =>
    unfold lookup
    rw [hquery]
    rfl
  | ok key =>
    cases hfind : c.find? key with
    | none =>
      rw [lookup_of_missing h hquery hfind]
      show _ = c.get key
      rw [Content.get, hfind]
      rfl
    | some v =>
      rcases lookup_of_find? h hquery hfind with ⟨cell, hlookup, hcell⟩
      rw [hlookup]
      show Except.ok (host.heap.get cell) = c.get key
      rw [hcell, Content.get, hfind]

/-- The message that answers a question is about what the memory holds. -/
theorem lookupMessage_fst (s : Service Backed) (host : Host) (query : Message) :
    (s.lookupMessage host query).1 =
      (s.lookup host query).1.map host.heap.get >>= fun m =>
        (s.signer.toMessage m).mapError Failure.asEncoding := by
  have hhost := s.lookup_snd host query
  unfold lookupMessage
  rcases hlookup : s.lookup host query with ⟨result, host'⟩
  rw [hlookup] at hhost
  obtain rfl : host' = host := hhost
  cases result with
  | error e => rfl
  | ok cell => rfl

end Service

namespace Server

/-! ## What requests keep -/

section

variable {P : Server → Host → Prop} {s : Server} {host : Host}

/-- What is kept by the service when it takes messages, an update keeps. -/
theorem update_keeps (h : P s host)
    (hupdate : ∀ messages, P { s with service := (s.service.update host messages).2.1 }
      (s.service.update host messages).2.2)
    (messages : Outcome (List Message)) (ok : List Message → Response) :
    P (s.update host messages ok).2.1 (s.update host messages ok).2.2 := by
  cases messages with
  | error e => exact h
  | ok messages => exact hupdate messages

/-- No other target changes the server. -/
theorem serve_keeps (h : P s host)
    (hupdate : ∀ messages, P { s with service := (s.service.update host messages).2.1 }
      (s.service.update host messages).2.2)
    (target : Target) (body : Utf8.Bytes) :
    P (s.serve host target body).2.1 (s.serve host target body).2.2 := by
  by_cases htarget : target.isUpdate = true
  · cases target with
    | updatePath type name value =>
      simp only [serve]
      cases (do
        let type ← Http.parameter "mtype" type
        let name ← Http.parameter "name" name
        let value ← Http.parameter "value" value
        return (type, name, value) : Except String (String × String × String)) with
      | error bad => exact h
      | ok _ => exact update_keeps h hupdate _ _
    | updateOne =>
      simp only [serve]
      split
      · exact h
      · exact update_keeps h hupdate _ _
    | updateBatch =>
      simp only [serve]
      split
      · exact h
      · exact update_keeps h hupdate _ _
    | report => cases htarget
    | ping => cases htarget
    | valuePath type name => cases htarget
    | valueOne => cases htarget
  · rw [Bool.not_eq_true] at htarget
    rw [serve_snd_of_not_isUpdate htarget]
    exact h

/-- What all updates keep, all requests keep. -/
theorem answer_keeps (h : P s host)
    (hupdate : ∀ messages, P { s with service := (s.service.update host messages).2.1 }
      (s.service.update host messages).2.2) (r : Request) :
    P (s.answer host r).2.1 (s.answer host r).2.2 := by
  unfold answer
  cases Target.ofPath? r.path with
  | none => cases s.refusal? r <;> exact h
  | some target =>
    simp only
    split
    · cases s.refusal? r with
      | none => exact serve_keeps h hupdate target r.body
      | some e => exact h
    · exact h

end

/-- What all updates keep, all runs keep. -/
theorem run_keeps {P : Server → Host → Prop} {s : Server} {host : Host} (h : P s host)
    (hupdate : ∀ s host, P s host → ∀ messages,
      P { s with service := (s.service.update host messages).2.1 }
        (s.service.update host messages).2.2) (rs : List Request) :
    P (s.run host rs).2.1 (s.run host rs).2.2 := by
  induction rs generalizing s host with
  | nil => exact h
  | cons r rs ih => exact ih (answer_keeps h (hupdate s host h) r)

/-! ## Servers that hold the same -/

/-- Two servers hold the same, sign alike and serve the same clients. -/
structure Alike (s : Server) (host : Host) (s' : Server) (host' : Host) : Prop where
  contents : ∃ c d c' d', s.store.Layers host c d ∧ s'.store.Layers host' c' d' ∧ c.Same c'
  signer : s.service.signer = s'.service.signer
  subnet : s.subnet = s'.subnet

/-- Two servers give the same response, and are still alike after it. -/
structure SameResponse (next next' : Response × Server × Host) : Prop where
  response : next.1 = next'.1
  alike : next.2.1.Alike next.2.2 next'.2.1 next'.2.2

section

variable {s s' : Server} {host host' : Host}

/-- One response leaves two servers that are alike so. -/
theorem Alike.same (h : s.Alike host s' host') (response : Response) :
    SameResponse (response, s, host) (response, s', host') := ⟨rfl, h⟩

/-- Two servers that hold the same take the same messages, and answer alike. -/
theorem Alike.update (h : s.Alike host s' host') (messages : Outcome (List Message))
    (ok : List Message → Response) :
    SameResponse (s.update host messages ok) (s'.update host' messages ok) := by
  cases messages with
  | error e => exact h.same _
  | ok messages =>
    rcases h.contents with ⟨c, d, c', d', hlayers, hlayers', hsame⟩
    -- Both understand the messages alike, and a message that is understood is taken.
    cases hmetrics : s.service.signer.fromMessages messages with
    | error e =>
      have hmetrics' := hmetrics
      rw [h.signer] at hmetrics'
      unfold Server.update
      simp only [Service.update_of_error hmetrics, Service.update_of_error hmetrics']
      exact h.same _
    | ok metrics =>
      have hmetrics' := hmetrics
      rw [h.signer] at hmetrics'
      rcases Service.update_of_layers hlayers hmetrics with ⟨b, next, hupdate, hnext, -⟩
      rcases Service.update_of_layers hlayers' hmetrics' with ⟨b', next', hupdate', hnext', -⟩
      unfold Server.update
      simp only [hupdate, hupdate', h.signer, (hsame.add metrics).1]
      exact ⟨rfl, ⟨_, _, _, _, hnext, hnext', (hsame.add metrics).2⟩, rfl, h.subnet⟩

/-- Two servers that are alike find the same. -/
theorem Alike.map_get_lookup (h : s.Alike host s' host') (query : Message) :
    (s.service.lookup host query).1.map host.heap.get =
      (s'.service.lookup host' query).1.map host'.heap.get := by
  rcases h.contents with ⟨c, d, c', d', hlayers, hlayers', hsame⟩
  have hget : c.get = c'.get := by
    funext key
    unfold Content.get
    rw [hsame key]
  rw [Service.map_get_lookup hlayers.memory, Service.map_get_lookup hlayers'.memory, hget]

/-- Two servers that are alike show the same report. -/
theorem Alike.report (h : s.Alike host s' host') :
    (s.service.report host).1 = (s'.service.report host').1 := by
  rcases h.contents with ⟨c, d, c', d', hlayers, hlayers', hsame⟩
  have hsnapshot : s.store.memory.snapshot host.heap = s'.store.memory.snapshot host'.heap := by
    rw [hlayers.memory.snapshot_eq, hlayers'.memory.snapshot_eq,
      hsame.ofMetrics_eq hlayers.sound.distinct hlayers'.sound.distinct]
  exact congrArg (fun t => (Except.ok (Report.render t) : Outcome String)) hsnapshot

/-- The response to a question says what the question finds. -/
theorem ofOutcome_lookup (s : Server) (host : Host) (query : Message) (ok : Metric → Response) :
    Response.ofOutcome (s.service.lookup host query).1
        (fun cell => ok ((s.service.lookup host query).2.heap.get cell)) =
      Response.ofOutcome ((s.service.lookup host query).1.map host.heap.get) ok := by
  rw [Service.lookup_snd]
  cases (s.service.lookup host query).1 <;> rfl

/-- What two servers that are alike tell of a metric is the same. -/
theorem Alike.ofOutcome_lookup (h : s.Alike host s' host') (query : Message)
    (ok : Metric → Response) :
    Response.ofOutcome (s.service.lookup host query).1
        (fun cell => ok ((s.service.lookup host query).2.heap.get cell)) =
      Response.ofOutcome (s'.service.lookup host' query).1
        (fun cell => ok ((s'.service.lookup host' query).2.heap.get cell)) := by
  rw [Server.ofOutcome_lookup, Server.ofOutcome_lookup, h.map_get_lookup]

/-- The message that answers a question is the same. -/
theorem Alike.lookupMessage (h : s.Alike host s' host') (query : Message) :
    (s.service.lookupMessage host query).1 = (s'.service.lookupMessage host' query).1 := by
  rw [Service.lookupMessage_fst, Service.lookupMessage_fst, h.map_get_lookup, h.signer]

/-- Every question but a ping is answered alike. -/
theorem Alike.serve_fst (h : s.Alike host s' host') {target : Target}
    (hread : target.isUpdate = false) (hping : target ≠ .ping) (body : Utf8.Bytes) :
    (s.serve host target body).1 = (s'.serve host' target body).1 := by
  cases target with
  | updatePath type name value => cases hread
  | updateOne => cases hread
  | updateBatch => cases hread
  | report =>
    exact congrArg (fun result => Response.ofOutcome result (.ok Response.page)) h.report
  | ping => exact absurd rfl hping
  | valuePath type name =>
    simp only [Server.serve]
    cases (do
      let type ← Http.parameter "mtype" type
      let name ← Http.parameter "name" name
      return (type, name) : Except String (String × String)) with
    | error bad => rfl
    | ok query =>
      simp only
      exact h.ofOutcome_lookup (.query query.2 query.1) fun m =>
        .ok Response.plain m.value.canonical
  | valueOne =>
    simp only [Server.serve]
    split
    · rfl
    · cases Message.decodeOne body with
      | error e => rfl
      | ok query => simp only [h.lookupMessage]

/-- Every target but a ping is served alike. -/
theorem Alike.serve (h : s.Alike host s' host') {target : Target} (hping : target ≠ .ping)
    (body : Utf8.Bytes) : SameResponse (s.serve host target body) (s'.serve host' target body) := by
  by_cases hupdate : target.isUpdate = true
  · cases target with
    | updatePath type name value =>
      simp only [Server.serve]
      cases (do
        let type ← Http.parameter "mtype" type
        let name ← Http.parameter "name" name
        let value ← Http.parameter "value" value
        return (type, name, value) : Except String (String × String × String)) with
      | error bad => exact h.same _
      | ok _ => exact h.update _ _
    | updateOne =>
      simp only [Server.serve]
      split
      · exact h.same _
      · exact h.update _ _
    | updateBatch =>
      simp only [Server.serve]
      split
      · exact h.same _
      · exact h.update _ _
    | report => cases hupdate
    | ping => cases hupdate
    | valuePath type name => cases hupdate
    | valueOne => cases hupdate
  · rw [Bool.not_eq_true] at hupdate
    refine ⟨h.serve_fst hupdate hping body, ?_⟩
    rw [serve_snd_of_not_isUpdate hupdate, serve_snd_of_not_isUpdate hupdate]
    exact h

/-- Every request but a ping is answered alike. -/
theorem Alike.answer (h : s.Alike host s' host') {r : Request}
    (hping : Target.ofPath? r.path ≠ some .ping) :
    SameResponse (s.answer host r) (s'.answer host' r) := by
  have hrefusal : s.refusal? r = s'.refusal? r := by
    unfold refusal?
    rw [h.subnet]
  unfold Server.answer
  rw [hrefusal]
  cases htarget : Target.ofPath? r.path with
  | none => cases s'.refusal? r <;> exact h.same _
  | some target =>
    rw [htarget] at hping
    simp only
    split
    · cases s'.refusal? r with
      | none =>
        have hserve := h.serve (fun heq => hping (congrArg some heq)) r.body
        refine ⟨?_, hserve.alike⟩
        simp only [hserve.response]
      | some e => exact h.same _
    · exact h.same _

/-- Requests without a ping are answered alike. -/
theorem Alike.run (h : s.Alike host s' host') {rs : List Request}
    (hping : ∀ r ∈ rs, Target.ofPath? r.path ≠ some .ping) :
    (s.run host rs).1 = (s'.run host' rs).1 := by
  induction rs generalizing s host s' host' with
  | nil => rfl
  | cons r rs ih =>
    have hone := h.answer (hping r List.mem_cons_self)
    have hrest := ih hone.alike fun x hx => hping x (List.mem_cons_of_mem _ hx)
    rw [run_cons, run_cons, hone.response, hrest]

end

end Server

end MetricRelay
