import MetricRelay.Proofs.Http.Alike
import MetricRelay.Proofs.Http.Batches
import MetricRelay.Proofs.Service.Updates
import MetricRelay.Proofs.Store.Faults

/-!
# Blame

A client is only blamed for what it sent.  Whether an update is turned down, and how,
is settled by the request, the key and the subnet alone, before the store is asked;
after that it is taken, or the server itself is at fault.  In the same way a question
is found wrong by itself, and only otherwise looked up.  So two servers with one key
and one subnet turn the same requests down alike, whatever their stores, backups and
modes are, also where what they stored is corrupt or cannot be reached.

Main definitions:

- `Server.verdict`: the metrics that a request asks to be added, or the response by which
  it is turned down.
- `Http.Response.Agrees`: two responses are the same unless both have certain statuses.

Main results:

- `Server.answer_of_verdict`: an update that is not turned down is up to the store.
- `Server.answer_lookup_agrees`: a question is turned down by itself.
- `Server.blames_alike`: two servers turn the same requests down alike.
-/

namespace MetricRelay

open Http (Request Response Target)
open Outcome (FailsBy)

/-! ## Responses -/

namespace Http

/-- Whether a target answers with a value. -/
def Target.isLookup : Target → Bool
  | .valuePath .. | .valueOne => true
  | .report | .ping | .updatePath .. | .updateOne | .updateBatch => false

/-- Two responses are the same, unless both have some of certain statuses. -/
def Response.Agrees (statuses : List Nat) (a b : Response) : Prop :=
  a = b ∨ a.status ∈ statuses ∧ b.status ∈ statuses

namespace Response

variable {statuses : List Nat} {a b : Response}

/-- Responses that agree still do without their bodies. -/
theorem Agrees.head (h : Agrees statuses a b) : Agrees statuses a.head b.head := by
  rcases h with rfl | h
  · exact .inl rfl
  · exact .inr h

/-- A response with any other status is given by both or by none. -/
theorem Agrees.eq_iff (h : Agrees statuses a b) {response : Response}
    (hstatus : response.status ∉ statuses) : a = response ↔ b = response := by
  rcases h with rfl | ⟨ha, hb⟩
  · exact Iff.rfl
  · constructor
    · rintro rfl
      exact absurd ha hstatus
    · rintro rfl
      exact absurd hb hstatus

/-- A failure of a client is told with the status 400 or 501. -/
theorem status_of_isClients {e : Failure} (h : e.IsClients) :
    (failure e).status = 400 ∨ (failure e).status = 501 := by
  show e.fault.status = 400 ∨ e.fault.status = 501
  rcases h with h | h <;> rw [h]
  · exact .inl rfl
  · exact .inr rfl

/-- A failure of the store is told with the status 500. -/
theorem status_of_isStores {e : Failure} (h : e.IsStores) :
    (failure e.asStorage).status = 500 := by
  show e.asStorage.fault.status = 500
  rw [h]
  rfl

end Response

end Http

/-! ## What cannot be read -/

namespace Message

/-- A body that is no message is the fault of the client. -/
theorem decodeOne_isClients (body : Utf8.Bytes) :
    FailsBy Failure.IsClients (decodeOne body) := by
  unfold decodeOne
  split
  · exact .of_ok _
  · exact .of_error (.inl rfl)

/-- A body that is no list of messages is a fault of the client. -/
theorem decodeBatch_isClients (body : Utf8.Bytes) :
    FailsBy Failure.IsClients (decodeBatch body) := by
  unfold decodeBatch
  split
  · split
    · exact .of_ok _
    · exact .of_error (.inl rfl)
  · exact (decodeOne_isClients body).map _

/-- A path with an unknown kind or a value that cannot be read is a fault of the client. -/
theorem decodePath_isClients (kind name raw : String) :
    FailsBy Failure.IsClients (decodePath kind name raw) := by
  have hkind : FailsBy Failure.IsClients (Kind.parse kind) := by
    unfold Kind.parse
    split
    · exact .of_ok _
    · exact .of_error (.inr rfl)
  refine hkind.bind fun k => ?_
  exact (Value.parse_isClients k raw).bind fun _ => .of_ok _

end Message

namespace Server

variable {s s' : Server} {host host' : Host} {r : Request} {target : Target}

/-! ## The verdict -/

/-- The metrics of some messages, or the response by which they are turned down. -/
def understand (s : Server) (messages : Outcome (List Message)) : Except Response (List Metric) :=
  match messages with
  | .error e => .error (.failure e)
  | .ok ms =>
    match s.service.signer.fromMessages ms with
    | .error e => .error (.failure e.asConversion)
    | .ok metrics => .ok metrics

/-- The metrics that are sent to a target, or the response by which they are turned
down. -/
def sift (s : Server) (target : Target) (body : Utf8.Bytes) : Except Response (List Metric) :=
  match target with
  | .updatePath type name value =>
    match do
      let type ← Http.parameter "mtype" type
      let name ← Http.parameter "name" name
      let value ← Http.parameter "value" value
      return (type, name, value) with
    | .error bad => .error (Http.badParameter bad)
    | .ok (type, name, value) =>
      s.understand ((Message.decodePath type name value).map fun m => [m])
  | .updateOne =>
    if greatestBody < body.length then .error tooLarge
    else s.understand ((Message.decodeOne body).map fun m => [m])
  | .updateBatch =>
    if greatestBody < body.length then .error tooLarge
    else s.understand (Message.decodeBatch body)
  | .report | .ping | .valuePath .. | .valueOne => .ok []

/-- The metrics that a request for a target asks to be added, or the response by which
it is turned down.  The store has no say in this. -/
def verdict (s : Server) (target : Target) (r : Request) : Except Response (List Metric) :=
  if r.method = "POST" then
    match s.refusal? r with
    | some e => .error (.failure e)
    | none => s.sift target r.body
  else
    let response := match s.refusal? r with
      | some e => Response.failure e
      | none => .bare 405
    .error { response with allow := some target.allowed }

/-- The verdict is that of every server with the same key for the same clients. -/
theorem verdict_congr (hsigner : s.service.signer = s'.service.signer)
    (hsubnet : s.subnet = s'.subnet) : s.verdict target r = s'.verdict target r := by
  unfold verdict sift understand refusal?
  rw [hsigner, hsubnet]

/-- The status of a response by which a request is turned down is neither that of
success nor that of a fault of the server. -/
def TurnsDown (response : Response) : Prop := response.status ∉ [200, 500]

/-- What is the fault of a client turns it down. -/
theorem turnsDown_of_isClients {e : Failure} (h : e.IsClients) : TurnsDown (.failure e) := by
  unfold TurnsDown
  rcases Response.status_of_isClients h with hstatus | hstatus <;> rw [hstatus] <;> decide

/-- Messages that are not understood turn the client down. -/
theorem turnsDown_of_understand {messages : Outcome (List Message)}
    (hmessages : FailsBy Failure.IsClients messages) {response : Response}
    (h : s.understand messages = .error response) : TurnsDown response := by
  unfold understand at h
  split at h
  · rename_i e
    cases h
    exact turnsDown_of_isClients (hmessages e rfl)
  · split at h
    · rename_i e _
      cases h
      exact turnsDown_of_isClients e.isClients_asConversion
    · cases h

/-- A body that does not belong to its target is turned down. -/
theorem turnsDown_of_sift {body : Utf8.Bytes} {response : Response}
    (h : s.sift target body = .error response) : TurnsDown response := by
  unfold sift at h
  cases target with
  | report => cases h
  | ping => cases h
  | valuePath type name => cases h
  | valueOne => cases h
  | updatePath type name value =>
    simp only at h
    split at h
    · cases h
      show 400 ∉ [200, 500]
      decide
    · exact turnsDown_of_understand ((Message.decodePath_isClients _ _ _).map _) h
  | updateOne =>
    simp only at h
    split at h
    · cases h
      show 413 ∉ [200, 500]
      decide
    · exact turnsDown_of_understand ((Message.decodeOne_isClients body).map _) h
  | updateBatch =>
    simp only at h
    split at h
    · cases h
      show 413 ∉ [200, 500]
      decide
    · exact turnsDown_of_understand (Message.decodeBatch_isClients body) h

/-- Who is refused is outside or unknown. -/
theorem fault_of_refusal? {e : Failure} (h : s.refusal? r = some e) : e.fault = .forbidden := by
  unfold refusal? at h
  split at h
  · cases h
  · split at h
    · cases h
      rfl
    · split at h <;> cases h
      rfl

/-- A request that the subnet refuses is turned down. -/
theorem turnsDown_of_refusal? {e : Failure} (h : s.refusal? r = some e) :
    TurnsDown (.failure e) := by
  show e.fault.status ∉ [200, 500]
  rw [fault_of_refusal? h]
  decide

/-- Whatever a verdict is for, it turns the client down. -/
theorem turnsDown_of_verdict {response : Response} (h : s.verdict target r = .error response) :
    TurnsDown response := by
  unfold verdict at h
  cases hrefusal : s.refusal? r with
  | none =>
    simp only [hrefusal] at h
    split at h
    · exact turnsDown_of_sift h
    · cases h
      show 405 ∉ [200, 500]
      decide
  | some e =>
    simp only [hrefusal] at h
    split at h
    · cases h
      exact turnsDown_of_refusal? hrefusal
    · cases h
      exact turnsDown_of_refusal? hrefusal

/-! ## Updates -/

/-- What follows a verdict: the response by which a request is turned down, or one that
is up to the store. -/
def Follows (s : Server) (host : Host) (verdict : Except Response (List Metric))
    (response : Response) : Prop :=
  match verdict with
  | .error turned => response = turned
  | .ok metrics =>
    match (Storage.add s.store (host.allocAll metrics).2 (host.allocAll metrics).1).1 with
    | .error e => response = .failure e.asStorage ∧ response.status = 500
    | .ok _ => response.status = 200

/-- Messages are turned down, or their metrics are added. -/
theorem follows_update {messages : Outcome (List Message)} {ok : List Message → Response}
    (hok : ∀ ms answers, messages = .ok ms → answers.length = ms.length →
      (ok answers).status = 200) :
    s.Follows host (s.understand messages) (s.update host messages ok).1 := by
  cases messages with
  | error e => exact Eq.refl (Response.failure e)
  | ok ms =>
    have hresponse : (s.update host (.ok ms) ok).1 = .ofOutcome (s.service.update host ms).1 ok := rfl
    rw [hresponse]
    cases hmetrics : s.service.signer.fromMessages ms with
    | error e =>
      simp only [understand, hmetrics, Service.update_of_error hmetrics]
      exact Eq.refl (Response.failure e.asConversion)
    | ok metrics =>
      have hstores := s.service.store.add_isStores (host.allocAll metrics).2
        (host.allocAll metrics).1
      simp only [understand, hmetrics]
      rcases hadd : Storage.add s.service.store (host.allocAll metrics).2
        (host.allocAll metrics).1 with ⟨result, store, host'⟩
      cases result with
      | error e =>
        have hstatus : (Response.failure e.asStorage).status = 500 :=
          Response.status_of_isStores (hstores e (congrArg Prod.fst hadd))
        have hupdate : (s.service.update host ms).1 = .error e.asStorage := by
          unfold Service.update
          rw [hmetrics]
          simp only [Except.mapError, hadd]
        simp only [Follows, Server.store, hadd, hupdate]
        exact ⟨rfl, hstatus⟩
      | ok hs =>
        have hupdate := Service.update_of_add hmetrics hadd rfl
        simp only [Follows, Server.store, hadd]
        have hlength := Service.length_update hupdate
        rw [hupdate]
        exact hok ms _ rfl hlength

/-- What is sent to a target for updates is turned down, or added. -/
theorem follows_serve (htarget : target.isUpdate = true) (body : Utf8.Bytes) :
    s.Follows host (s.sift target body) (s.serve host target body).1 := by
  cases target with
  | report => cases htarget
  | ping => cases htarget
  | valuePath type name => cases htarget
  | valueOne => cases htarget
  | updatePath type name value =>
    simp only [sift, serve]
    cases (do
      let type ← Http.parameter "mtype" type
      let name ← Http.parameter "name" name
      let value ← Http.parameter "value" value
      return (type, name, value) : Except String (String × String × String)) with
    | error bad => exact Eq.refl (Http.badParameter bad)
    | ok parts => exact follows_update fun _ _ _ _ => rfl
  | updateOne =>
    simp only [sift, serve]
    split
    · exact Eq.refl tooLarge
    · apply follows_update
      intro ms answers hms hlength
      cases hone : Message.decodeOne body with
      | error e =>
        rw [hone] at hms
        cases hms
      | ok m =>
        rw [hone] at hms
        cases hms
        rcases List.length_eq_one_iff.1 hlength with ⟨answer, rfl⟩
        rfl
  | updateBatch =>
    simp only [sift, serve]
    split
    · exact Eq.refl tooLarge
    · exact follows_update fun _ _ _ _ => rfl

/-- A request for an update is turned down by itself, or it is up to the store. -/
theorem answer_of_verdict (htarget : Target.ofPath? r.path = some target)
    (hupdate : target.isUpdate = true) :
    s.Follows host (s.verdict target r) (s.answer host r).1 := by
  by_cases hmethod : r.method = "POST"
  · have hread : target.isRead = false := Target.isRead_of_isUpdate hupdate
    rw [answer_posted htarget hread hmethod, verdict, if_pos hmethod]
    cases s.refusal? r with
    | none => exact follows_serve hupdate r.body
    | some e => exact Eq.refl (Response.failure e)
  · have hallowed : ¬target.allowed.contains r.method = true :=
      fun h => hmethod (Target.method_eq_of_isUpdate hupdate h)
    rw [verdict, if_neg hmethod]
    unfold answer
    simp only [htarget]
    rw [if_neg hallowed]
    exact Eq.refl _

/-! ## Questions -/

/-- A question that names a metric finds it or does not. -/
theorem status_of_lookup {query : Message} {key : Key} (hquery : query.identity = .ok key)
    {ok : Handle → Response} (hok : ∀ h, (ok h).status = 200) :
    (Response.ofOutcome (s.service.lookup host query).1 ok).status ∈ [200, 404] := by
  unfold Service.lookup
  rw [hquery]
  show (Response.ofOutcome ((s.store.memory.get key).mapError Failure.asStorage) ok).status ∈ _
  unfold Memory.get
  cases s.store.memory.get? key with
  | none => exact List.mem_cons_of_mem _ List.mem_cons_self
  | some cell =>
    have hstatus : (Response.ofOutcome (.ok cell : Outcome Handle) ok).status = 200 := hok cell
    exact hstatus ▸ List.mem_cons_self

/-- Whether a question names a metric, and how it is turned down if it does not, is
settled by itself. -/
theorem lookup_agrees (s s' : Server) (host host' : Host) (query : Message)
    {ok ok' : Handle → Response} (hok : ∀ h, (ok h).status = 200)
    (hok' : ∀ h, (ok' h).status = 200) :
    Response.Agrees [200, 404] (.ofOutcome (s.service.lookup host query).1 ok)
      (.ofOutcome (s'.service.lookup host' query).1 ok') := by
  cases hquery : query.identity with
  | error e =>
    left
    unfold Service.lookup
    rw [hquery]
    rfl
  | ok key => exact .inr ⟨status_of_lookup hquery hok, status_of_lookup hquery hok'⟩

/-- The message that answers a question is found like its metric. -/
theorem ofOutcome_lookupMessage (s : Server) (host : Host) (query : Message)
    (ok : Message → Response) :
    Response.ofOutcome (s.service.lookupMessage host query).1 ok =
      .ofOutcome (s.service.lookup host query).1 fun cell =>
        ok (s.service.signer.message (host.heap.get cell)) := by
  rw [Service.lookupMessage_fst]
  cases (s.service.lookup host query).1 with
  | error e => rfl
  | ok cell =>
    show Response.ofOutcome ((s.service.signer.toMessage (host.heap.get cell)).mapError
      Failure.asEncoding) ok = _
    rw [Signer.toMessage_eq]
    rfl

/-- Two servers may differ about a question only in whether they know the metric. -/
theorem serve_lookup_agrees (s s' : Server) (host host' : Host) (htarget : target.isLookup = true)
    (body : Utf8.Bytes) :
    Response.Agrees [200, 404] (s.serve host target body).1 (s'.serve host' target body).1 := by
  cases target with
  | report => cases htarget
  | ping => cases htarget
  | updatePath type name value => cases htarget
  | updateOne => cases htarget
  | updateBatch => cases htarget
  | valuePath type name =>
    simp only [serve]
    cases (do
      let type ← Http.parameter "mtype" type
      let name ← Http.parameter "name" name
      return (type, name) : Except String (String × String)) with
    | error bad => exact .inl rfl
    | ok parts => exact lookup_agrees s s' host host' _ (fun _ => rfl) fun _ => rfl
  | valueOne =>
    simp only [serve]
    split
    · exact .inl rfl
    · cases Message.decodeOne body with
      | error e => exact .inl rfl
      | ok query =>
        simp only [ofOutcome_lookupMessage]
        exact lookup_agrees s s' host host' query (fun _ => rfl) fun _ => rfl

/-- A question is turned down by itself, or it is up to the store. -/
theorem answer_lookup_agrees (hsubnet : s.subnet = s'.subnet) (host host' : Host)
    (htarget : Target.ofPath? r.path = some target) (hlookup : target.isLookup = true) :
    Response.Agrees [200, 404] (s.answer host r).1 (s'.answer host' r).1 := by
  have hrefusal : s.refusal? r = s'.refusal? r := by
    unfold refusal?
    rw [hsubnet]
  have hserve := serve_lookup_agrees s s' host host' hlookup r.body
  unfold answer
  simp only [htarget, hrefusal]
  split
  · cases s'.refusal? r with
    | some e => exact .inl rfl
    | none =>
      simp only
      split
      · exact hserve.head
      · exact hserve
  · exact .inl rfl

/-! ## Two servers -/

/-- Two servers turn the same requests for a target down, with the same responses.  For
an update that is every response but one of success or one that puts the fault to the
server; for a question it is every response that does not depend on what is found.  An
update is turned down as the request alone settles it.  One that is not turned down is
taken if the store takes it, and is otherwise the fault of the server. -/
structure BlamesAlike (s : Server) (host : Host) (s' : Server) (host' : Host) (target : Target)
    (r : Request) : Prop where
  update : target.isUpdate = true →
    ∀ response : Response, response.status ≠ 200 → response.status ≠ 500 →
      ((s.answer host r).1 = response ↔ (s'.answer host' r).1 = response)
  lookup : target.isLookup = true →
    ∀ response : Response, response.status ≠ 200 → response.status ≠ 404 →
      ((s.answer host r).1 = response ↔ (s'.answer host' r).1 = response)
  client : target.isUpdate = true → ∀ response, s.verdict target r = .error response →
    (s.answer host r).1 = response ∧ TurnsDown response
  store : target.isUpdate = true → ∀ metrics, s.verdict target r = .ok metrics →
    match (Storage.add s.store (host.allocAll metrics).2 (host.allocAll metrics).1).1 with
    | .error e => (s.answer host r).1 = .failure e.asStorage ∧ (s.answer host r).1.status = 500
    | .ok _ => (s.answer host r).1.status = 200

/-- The status of an update that is not turned down. -/
theorem Follows.status_mem {metrics : List Metric} {response : Response}
    (h : s.Follows host (.ok metrics) response) : response.status ∈ [200, 500] := by
  simp only [Follows] at h
  split at h
  · rw [h.2]
    decide
  · rw [h]
    decide

/-- Two servers with one key and for one subnet turn the same requests down alike,
whatever is in their stores, on their disks and in their databases. -/
theorem blames_alike (hsigner : s.service.signer = s'.service.signer)
    (hsubnet : s.subnet = s'.subnet) (host host' : Host)
    (htarget : Target.ofPath? r.path = some target) :
    s.BlamesAlike host s' host' target r where
  update := by
    intro hupdate response hok hfault
    have hfollows : s.Follows host (s.verdict target r) (s.answer host r).1 :=
      answer_of_verdict htarget hupdate
    have hfollows' : s'.Follows host' (s'.verdict target r) (s'.answer host' r).1 :=
      answer_of_verdict htarget hupdate
    rw [← verdict_congr hsigner hsubnet] at hfollows'
    have hagrees : Response.Agrees [200, 500] (s.answer host r).1 (s'.answer host' r).1 := by
      cases hverdict : s.verdict target r with
      | error turned =>
        rw [hverdict] at hfollows hfollows'
        exact .inl (hfollows.trans hfollows'.symm)
      | ok metrics =>
        rw [hverdict] at hfollows hfollows'
        exact .inr ⟨hfollows.status_mem, hfollows'.status_mem⟩
    exact hagrees.eq_iff (by simp [hok, hfault])
  lookup := by
    intro hlookup response hok hmissing
    exact (answer_lookup_agrees hsubnet host host' htarget hlookup).eq_iff (by simp [hok, hmissing])
  client := by
    intro hupdate response hverdict
    have hfollows : s.Follows host (s.verdict target r) (s.answer host r).1 :=
      answer_of_verdict htarget hupdate
    rw [hverdict] at hfollows
    exact ⟨hfollows, turnsDown_of_verdict hverdict⟩
  store := by
    intro hupdate metrics hverdict
    have hfollows : s.Follows host (s.verdict target r) (s.answer host r).1 :=
      answer_of_verdict htarget hupdate
    rw [hverdict] at hfollows
    exact hfollows

/-- A server without a backup and one that writes every update to a file in which there
is no list of records.  Both turn down a total that is none, and only the second one
fails where there is nothing to turn down. -/
theorem blames_alike_of_corrupt_file :
    let s := fresh Config.Server.default .disabled none
    let s' := fresh { Config.Server.default with storeInterval := 0 } (.file ⟨"metrics.json"⟩) none
    let host := Host.ofDisk (Disk.withDirectory ["data"])
    let host' := Host.ofDisk
      ((Disk.withDirectory ["data"]).put ["data", "metrics.json"] (.file (Utf8.encode "{}")))
    let update (value : String) : Request := ⟨"POST", "/update/counter/polls/" ++ value, [], []⟩
    (Target.ofPath? (update "x").path = some (.updatePath "counter" "polls" "x") ∧
      s.service.signer = s'.service.signer ∧ s.subnet = s'.subnet) ∧
    s.BlamesAlike host s' host' (.updatePath "counter" "polls" "x") (update "x") ∧
    (s.answer host (update "x")).1.status = 400 ∧ (s'.answer host' (update "x")).1.status = 400 ∧
    (s.answer host (update "1")).1.status = 200 ∧ (s'.answer host' (update "1")).1.status = 500 := by
  intro s s' host host' update
  have htarget : Target.ofPath? (update "x").path = some (.updatePath "counter" "polls" "x") := by
    decide +kernel
  have hsigner : s.service.signer = s'.service.signer := rfl
  have hsubnet : s.subnet = s'.subnet := rfl
  refine ⟨⟨htarget, hsigner, hsubnet⟩, blames_alike hsigner hsubnet host host' htarget, ?_⟩
  decide +kernel

end Server

end MetricRelay
