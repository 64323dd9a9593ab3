import MetricRelay.Proofs.Http.Server
import MetricRelay.Proofs.Message.Shapes

/-!
# One message as a list

A body of one message may be sent to either of two targets: to that of one message,
which answers with a message, or to that of a list, which answers with a list.  The
two do the same, whatever the server and its backup are, unless the message is
written as a list of its fields: then only the first target takes it.

Main definitions:

- `Http.Request.ToBoth`: two requests with the same content for the two targets.
- `Server.TakesAlike`: the answer to the second says what that to the first says.

Main results:

- `Service.length_update`: each message that is taken is answered by one.
- `Server.takes_alike_if_named`: a message that is taken alone is taken as a list
  too, exactly if its fields have names.
-/

namespace MetricRelay

open Http (Request Response Target)

/-! ## Answers -/

/-- Updates that are taken are answered one by one. -/
theorem Memory.length_add {heap heap' : Heap} {m m' : Memory} {hs answers : List Handle}
    (h : m.add heap hs = (.ok answers, heap', m')) : answers.length = hs.length := by
  induction hs generalizing heap m answers with
  | nil =>
    cases h
    rfl
  | cons x hs ih =>
    rw [add] at h
    split at h
    · cases h
    · rename_i answer heap₁ m₁ _
      rcases hrest : m₁.add heap₁ hs with ⟨result, heap₂, m₂⟩
      rw [hrest] at h
      cases result with
      | error e => cases h
      | ok rest =>
        cases h
        rw [List.length_cons, List.length_cons, ih hrest]

/-- The backup has no say in the answers. -/
theorem Backed.length_add {b b' : Backed} {host host' : Host} {hs answers : List Handle}
    (h : b.add host hs = (.ok answers, b', host')) : answers.length = hs.length := by
  unfold add at h
  rcases hmemory : b.memory.add host.heap hs with ⟨result, heap, memory⟩
  rw [hmemory] at h
  cases result with
  | error e => cases hmode : b.mode <;> simp [hmode] at h
  | ok taken =>
    have hlength := Memory.length_add hmemory
    cases hmode : b.mode with
    | asynchronous =>
      simp only [hmode, Prod.mk.injEq, Except.ok.injEq] at h
      rw [← h.1, hlength]
    | synchronous =>
      simp only [hmode] at h
      rcases hcopy : b.backup.add { host with heap := heap } hs with ⟨copied, backup, host''⟩
      rw [hcopy] at h
      cases copied with
      | error e => cases h
      | ok _ =>
        cases h
        exact hlength

/-- Each message that is taken is answered by one. -/
theorem Service.length_update {s s' : Service Backed} {host host' : Host}
    {messages answers : List Message} (h : s.update host messages = (.ok answers, s', host')) :
    answers.length = messages.length := by
  cases hmetrics : s.signer.fromMessages messages with
  | error e =>
    rw [update_of_error hmetrics] at h
    cases h
  | ok metrics =>
    have hgiven : (host.allocAll metrics).1.length = metrics.length :=
      (host.heap.shows_allocAll metrics).length_eq
    rcases hadd : s.store.add (host.allocAll metrics).2 (host.allocAll metrics).1 with
      ⟨result, store, host₁⟩
    cases result with
    | error e =>
      unfold update at h
      rw [hmetrics] at h
      have hadd' : Storage.add s.store (host.allocAll metrics).2 (host.allocAll metrics).1 =
          (.error e, store, host₁) := hadd
      simp only [Except.mapError, hadd'] at h
      cases h
    | ok hs =>
      rw [update_of_add hmetrics hadd rfl] at h
      cases h
      rw [List.length_map, Host.getAll, List.length_map, Backed.length_add hadd, hgiven,
        Signer.length_fromMessages hmetrics]

/-! ## Both targets -/

/-- Two requests that are alike, but one is for the target of one message and the
other for that of a list. -/
structure Http.Request.ToBoth (one batch : Request) : Prop where
  one_target : Target.ofPath? one.path = some .updateOne
  batch_target : Target.ofPath? batch.path = some .updateBatch
  method : batch.method = one.method
  headers : batch.headers = one.headers
  body : batch.body = one.body

namespace Server

/-- The second request is accepted like the first one and leaves the same behind;
its answer is a list that holds the answer to the first one alone. -/
structure TakesAlike (s : Server) (host : Host) (one batch : Request) : Prop where
  status : (s.answer host batch).1.status = 200
  contentType : (s.answer host batch).1.contentType = (s.answer host one).1.contentType
  body : (s.answer host batch).1.body = "[" ++ (s.answer host one).1.body ++ "]"
  left : (s.answer host batch).2 = (s.answer host one).2

section

variable {s : Server} {host : Host}

/-- A list with one message. -/
theorem ofList_jsonList_singleton (m : Message) :
    String.ofList (Message.jsonList [m]) = "[" ++ String.ofList m.json ++ "]" := by
  apply String.toList_inj.1
  simp [Message.jsonList, Json.list, Json.separated]

theorem onlyMessage_singleton (m : Message) :
    onlyMessage [m] = .ok Response.json (String.ofList m.json) :=
  rfl

/-- What is served with success as one message was read as one, and is answered by
one. -/
theorem exists_of_serve_updateOne {body : Utf8.Bytes}
    (h : (s.serve host .updateOne body).1.status = 200) :
    body.length ≤ greatestBody ∧ ∃ m answer service host',
      Message.decodeOne body = .ok m ∧
      s.service.update host [m] = (.ok [answer], service, host') ∧
      s.serve host .updateOne body =
        (.ok Response.json (String.ofList answer.json), { s with service := service }, host') := by
  simp only [serve] at h ⊢
  by_cases hlarge : greatestBody < body.length
  · rw [if_pos hlarge] at h
    cases h
  · rw [if_neg hlarge] at h
    refine ⟨Nat.le_of_not_lt hlarge, ?_⟩
    rw [if_neg hlarge]
    cases hdecode : Message.decodeOne body with
    | error e =>
      rw [hdecode] at h
      exact absurd h (Response.status_failure_ne e)
    | ok m =>
      rw [hdecode] at h
      rcases hupdate : s.service.update host [m] with ⟨result, service, host'⟩
      cases result with
      | error e =>
        exfalso
        apply Response.status_failure_ne e
        simpa only [Except.map, update, hupdate, Response.ofOutcome] using h
      | ok answers =>
        have hlength := Service.length_update hupdate
        rcases List.length_eq_one_iff.1 hlength with ⟨answer, rfl⟩
        refine ⟨m, answer, service, host', rfl, hupdate, ?_⟩
        simp only [Except.map, update, hupdate, Response.ofOutcome, onlyMessage_singleton]

/-- A message that is taken alone is taken as a list too, if its fields have names.
If it is a list of its fields, the target of lists refuses it. -/
theorem takes_alike_if_named {one batch : Request} (h : Request.ToBoth one batch)
    (hok : (s.answer host one).1.status = 200) :
    (¬ Message.IsListed one.body → s.TakesAlike host one batch) ∧
      (Message.IsListed one.body →
        s.answer host batch = (.failure Message.notMessages, s, host)) := by
  have hmethod := method_eq_of_status h.one_target rfl hok
  have hrefusal := refusal?_of_status hok
  have hone := @answer_post s host _ _ h.one_target rfl hmethod hrefusal
  have hbatch := @answer_post s host _ _ h.batch_target rfl (h.method.trans hmethod)
    ((s.refusal?_congr h.headers).trans hrefusal)
  rw [h.body] at hbatch
  rw [hone] at hok
  rcases exists_of_serve_updateOne hok with
    ⟨hsmall, m, answer, service, host', hdecode, hupdate, hserve⟩
  have hdecodes := Message.decodeBatch_of_decodeOne hdecode
  have hserves : s.serve host .updateBatch one.body =
      s.update host (Message.decodeBatch one.body) fun ms =>
        .ok Response.json (String.ofList (Message.jsonList ms)) := by
    simp only [serve, if_neg (Nat.not_lt.2 hsmall)]
  rw [hserves, hdecodes] at hbatch
  constructor
  · intro hnamed
    rw [if_neg hnamed] at hbatch
    simp only [update, hupdate, Response.ofOutcome, ofList_jsonList_singleton] at hbatch
    refine ⟨?_, ?_, ?_, ?_⟩
    · simp only [hbatch, Response.ok]
    · simp only [hbatch, hone, hserve, Response.ok]
    · simp only [hbatch, hone, hserve, Response.ok]
    · rw [hbatch, hone, hserve]
  · intro hlisted
    rw [if_pos hlisted] at hbatch
    simpa only [update] using hbatch

end

/-- A reading as an object, behind a line end. -/
theorem takes_alike_if_named_of_object :
    let s := fresh Config.Server.default .disabled none
    let host := Host.ofDisk (.withDirectory ["data"])
    let body := Utf8.encode "\n\x7b\"id\":\"load\",\"type\":\"gauge\",\"value\":2.5\x7d"
    let one : Request := ⟨"POST", "/update", [], body⟩
    let batch : Request := ⟨"POST", "/updates?now", [], body⟩
    (¬ Message.IsListed body → s.TakesAlike host one batch) ∧
      (Message.IsListed body →
        s.answer host batch = (.failure Message.notMessages, s, host)) := by
  intro s host body one batch
  have hboth : Request.ToBoth one batch := ⟨by decide, by decide, rfl, rfl, rfl⟩
  have hok : (s.answer host one).1.status = 200 := by decide +kernel
  exact takes_alike_if_named hboth hok

/-- The same reading as a list of its fields, which is taken alone and refused as a
list. -/
theorem not_takesAlike_of_list :
    let s := fresh Config.Server.default .disabled none
    let host := Host.ofDisk (.withDirectory ["data"])
    let body := Utf8.encode "[\"load\",\"gauge\",null,2.5]"
    let one : Request := ⟨"POST", "/update", [], body⟩
    let batch : Request := ⟨"POST", "/updates", [], body⟩
    Request.ToBoth one batch ∧ (s.answer host one).1.status = 200 ∧
      ¬ s.TakesAlike host one batch := by
  intro s host body one batch
  refine ⟨⟨by decide, by decide, rfl, rfl, rfl⟩, by decide +kernel, fun h => ?_⟩
  have hstatus : (s.answer host batch).1.status = 400 := by decide +kernel
  have hok := h.status
  rw [hstatus] at hok
  cases hok

end Server

end MetricRelay
