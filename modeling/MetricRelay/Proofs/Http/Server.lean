import Mathlib.Data.List.TakeWhile
import MetricRelay.Http.Server
import MetricRelay.Proofs.Service
import MetricRelay.Proofs.Text.Percent

/-!
# The server over a run

In asynchronous mode the values that a server shows are those that its accepted
requests come to.  Each way in which a request can be refused leaves them as
they were: a path that leads nowhere, a method or a client that is not allowed,
a body that is too large or cannot be read, and a message that is unknown,
incomplete, not finite or not validly signed.

Main definitions:

- `Server.board`: the values that a server shows.
- `Server.Serves`: the invariant of a server in asynchronous mode.
- `Server.run`: the responses to requests one after the other.

Main results:

- `Server.leaves_answer`: what one request leaves behind.
- `Server.leaves_run`: what a run leaves behind.
- `Server.shows_accepted`: the meaning of a run from an empty memory, and what is
  then read.
-/

namespace MetricRelay

open Http (Request Response Target)

/-! ## Statuses -/

/-- No failure has the status of success. -/
theorem Http.Response.status_failure_ne (e : Failure) : (Response.failure e).status ≠ 200 := by
  show e.fault.status ≠ 200
  cases e.fault <;> decide

/-- A parameter that cannot be read is an error. -/
theorem Http.Response.status_badParameter_ne (name : String) :
    (Http.badParameter name).status ≠ 200 := by
  show 400 ≠ 200
  decide

/-- A target for updates is not asked for by reading it. -/
theorem Http.Target.isRead_of_isUpdate {target : Target} (h : target.isUpdate = true) :
    target.isRead = false := by
  cases target with
  | updatePath type name value => rfl
  | updateOne => rfl
  | updateBatch => rfl
  | report => cases h
  | ping => cases h
  | valuePath type name => cases h
  | valueOne => cases h

/-- A target for updates only takes what is posted. -/
theorem Http.Target.method_eq_of_isUpdate {target : Target} {method : String}
    (hupdate : target.isUpdate = true) (hallowed : target.allowed.contains method = true) :
    method = "POST" := by
  rw [allowed, isRead_of_isUpdate hupdate] at hallowed
  simpa using hallowed

/-- What a request by an allowed method brings is what its target takes. -/
theorem Http.Request.updates_eq {r : Request} {target : Target}
    (htarget : Target.ofPath? r.path = some target)
    (hallowed : target.allowed.contains r.method = true) : r.updates = target.updates r.body := by
  rw [updates, htarget]
  cases hupdate : target.isUpdate with
  | true => rw [if_pos (Target.method_eq_of_isUpdate hupdate hallowed)]
  | false =>
    have hnone := Target.updates_of_not_isUpdate hupdate r.body
    simp only [hnone, ite_self]

/-- An address that starts with a slash and has neither query nor fragment is a
path. -/
theorem Http.Request.path_eq_address {r : Request} (hhead : r.address.toList.head? = some '/')
    (hwhole : ∀ c ∈ r.address.toList, (c ≠ '?' && c ≠ '#') = true) : r.path = r.address := by
  have hne : r.address.toList ≠ [] := by
    intro hnil
    rw [hnil] at hhead
    cases hhead
  unfold path
  simp only [hhead, if_true]
  rw [List.takeWhile_eq_self_iff.2 hwhole, List.isEmpty_eq_false_iff.2 hne,
    if_neg Bool.false_ne_true, String.ofList_toList]

namespace Server

/-! ## The invariant -/

/-- The values that a server shows. -/
def board (s : Server) (host : Host) : Board :=
  fun key => (s.store.memory.get? key).map fun cell => (host.heap.get cell).value

/-- A server in asynchronous mode, with each metric in a cell of its own. -/
def Serves (s : Server) (host : Host) : Prop := ∃ c, s.store.Serves host.heap c

/-- What a server is left with: the values that it shows, and whom it serves as
before. -/
structure Leaves (s : Server) (next : Server × Host) (board : Board) : Prop where
  serves : next.1.Serves next.2
  board : next.1.board next.2 = board
  subnet : next.1.subnet = s.subnet

/-- An answer that accounts for messages: it accepts them and they are taken, or
it changes nothing. -/
def Accounts (s : Server) (host : Host) (answer : Response × Server × Host)
    (messages : List Message) : Prop :=
  s.Leaves answer.2
    (if answer.1.status = 200 then (s.board host).takeAll messages else s.board host)

section Steps

variable {s : Server} {host : Host} {c : Content}

/-- The board shows what memory holds. -/
theorem board_of_holds (h : Memory.Holds host.heap s.store.memory c) :
    s.board host = Content.board c := by
  funext key
  have hcell := h.get?_eq key
  show (s.store.memory.get? key).map _ = c.find? key
  cases hfind : c.find? key with
  | none =>
    rw [hfind] at hcell
    rw [hcell]
    rfl
  | some v =>
    rw [hfind] at hcell
    rcases hcell with ⟨cell, hget, hshows⟩
    rw [hget, Option.map_some, Heap.get_eq_of_get? hshows]

/-- A serving server shows the contents that its memory stands for. -/
theorem board_eq (h : s.store.Serves host.heap c) : s.board host = Content.board c :=
  board_of_holds h.memory

/-- A refusal that changes nothing accounts for anything. -/
theorem Serves.refused (h : s.Serves host) {response : Response} (hstatus : response.status ≠ 200)
    (messages : List Message) : s.Accounts host (response, s, host) messages := by
  refine ⟨h, ?_, rfl⟩
  rw [if_neg hstatus]

/-- What brings no messages accounts for them by changing nothing. -/
theorem Serves.unchanged (h : s.Serves host) (response : Response) :
    s.Accounts host (response, s, host) [] :=
  ⟨h, (ite_self _).symm, rfl⟩

/-! ## One request -/

/-- Messages are refused, or all of them are taken. -/
theorem accounts_update (h : s.Serves host) (messages : Outcome (List Message))
    {ok : List Message → Response}
    (hok : ∀ answers, answers.length = (Http.held messages).length → (ok answers).status = 200) :
    s.Accounts host (s.update host messages ok) (Http.held messages) := by
  cases messages with
  | error e => exact h.refused (Response.status_failure_ne e) _
  | ok messages =>
    rcases h with ⟨c, hserves⟩
    cases hmetrics : s.service.signer.fromMessages messages with
    | error e =>
      have hupdate : s.update host (.ok messages) ok =
          (.failure e.asConversion, s, host) := by
        unfold update
        simp only [Service.update_of_error hmetrics]
        rfl
      rw [hupdate]
      exact Serves.refused ⟨c, hserves⟩ (Response.status_failure_ne _) _
    | ok metrics =>
      rcases Service.update_of_ok hserves hmetrics with ⟨heap, memory, hserves', hservice⟩
      have hlength : ((Content.add metrics c).1.map s.service.signer.message).length =
          messages.length := by
        rw [List.length_map, Content.length_add, Signer.length_fromMessages hmetrics]
      have hstatus := hok _ hlength
      have hupdate : s.update host (.ok messages) ok =
          (ok ((Content.add metrics c).1.map s.service.signer.message),
            s.withStore { s.store with memory := memory }, { host with heap := heap }) := by
        unfold update
        simp only [hservice]
        rfl
      have hboard : (s.withStore { s.store with memory := memory }).board
          { host with heap := heap } = Content.board (Content.add metrics c).2 :=
        board_eq hserves'
      rw [hupdate]
      refine ⟨⟨_, hserves'⟩, ?_, rfl⟩
      rw [if_pos hstatus, hboard, board_eq hserves]
      exact Content.board_add hmetrics c

/-- A path is answered for the message in it. -/
theorem accounts_updatePath (h : s.Serves host) (type name value : String) (body : Utf8.Bytes) :
    s.Accounts host (s.serve host (.updatePath type name value) body)
      ((Target.updatePath type name value).updates body) := by
  simp only [serve, Target.updates]
  cases Http.parameter "mtype" type with
  | error bad => exact h.refused (Response.status_badParameter_ne bad) _
  | ok type =>
    cases Http.parameter "name" name with
    | error bad => exact h.refused (Response.status_badParameter_ne bad) _
    | ok name =>
      cases Http.parameter "value" value with
      | error bad => exact h.refused (Response.status_badParameter_ne bad) _
      | ok value => exact accounts_update h _ fun _ _ => rfl

/-- One message is answered by one. -/
theorem accounts_updateOne (h : s.Serves host) (body : Utf8.Bytes) :
    s.Accounts host (s.serve host .updateOne body) (Target.updateOne.updates body) := by
  simp only [serve, Target.updates]
  by_cases hlarge : greatestBody < body.length
  · rw [if_pos hlarge]
    exact h.refused (by decide) _
  · rw [if_neg hlarge]
    cases hdecode : Message.decodeOne body with
    | error e => exact h.refused (Response.status_failure_ne e) _
    | ok m =>
      apply accounts_update h _
      intro answers hlength
      cases answers with
      | nil => cases hlength
      | cons m ms => rfl

/-- A list of messages is answered by a list. -/
theorem accounts_updateBatch (h : s.Serves host) (body : Utf8.Bytes) :
    s.Accounts host (s.serve host .updateBatch body) (Target.updateBatch.updates body) := by
  simp only [serve, Target.updates]
  by_cases hlarge : greatestBody < body.length
  · rw [if_pos hlarge]
    exact h.refused (by decide) _
  · rw [if_neg hlarge]
    exact accounts_update h _ fun _ _ => rfl

/-- A question changes nothing. -/
theorem serve_snd_of_not_isUpdate {target : Target} (htarget : target.isUpdate = false)
    (body : Utf8.Bytes) : (s.serve host target body).2 = (s, host) := by
  cases target with
  | updatePath type name value => cases htarget
  | updateOne => cases htarget
  | updateBatch => cases htarget
  | report => rfl
  | ping => rfl
  | valuePath type name =>
    simp only [serve]
    cases Http.parameter "mtype" type with
    | error bad => rfl
    | ok type =>
      cases Http.parameter "name" name with
      | error bad => rfl
      | ok name => exact congrArg (Prod.mk s) (s.service.lookup_snd host _)
  | valueOne =>
    simp only [serve]
    by_cases hlarge : greatestBody < body.length
    · rw [if_pos hlarge]
    · rw [if_neg hlarge]
      cases Message.decodeOne body with
      | error e => rfl
      | ok query => exact congrArg (Prod.mk s) (s.service.lookupMessage_snd host query)

/-- Every target accounts for what it takes. -/
theorem accounts_serve (h : s.Serves host) (target : Target) (body : Utf8.Bytes) :
    s.Accounts host (s.serve host target body) (target.updates body) := by
  by_cases htarget : target.isUpdate = true
  · cases target with
    | updatePath type name value => exact accounts_updatePath h type name value body
    | updateOne => exact accounts_updateOne h body
    | updateBatch => exact accounts_updateBatch h body
    | report => cases htarget
    | ping => cases htarget
    | valuePath type name => cases htarget
    | valueOne => cases htarget
  · rw [Bool.not_eq_true] at htarget
    have hsnd := @serve_snd_of_not_isUpdate s host target htarget body
    rw [Target.updates_of_not_isUpdate htarget]
    have hunchanged := h.unchanged (s.serve host target body).1
    rw [← hsnd] at hunchanged
    exact hunchanged

/-- What one request leaves behind. -/
theorem leaves_answer (h : s.Serves host) (r : Request) :
    s.Leaves (s.answer host r).2 ((s.board host).after r (s.answer host r).1.status) := by
  have hrefused (response : Response) (hstatus : response.status ≠ 200) :
      s.Leaves (s, host) ((s.board host).after r response.status) :=
    h.refused hstatus r.updates
  unfold answer
  cases htarget : Target.ofPath? r.path with
  | none =>
    cases s.refusal? r with
    | none => exact hrefused (.bare 404) (by decide)
    | some e => exact hrefused (.failure e) (Response.status_failure_ne e)
  | some target =>
    simp only
    by_cases hallowed : target.allowed.contains r.method = true
    · rw [if_pos hallowed]
      have hhead (response : Response) :
          (if r.method = "HEAD" then response.head else response).status = response.status := by
        split <;> rfl
      cases s.refusal? r with
      | none =>
        simp only [hhead]
        have haccounts := accounts_serve h target r.body
        rw [← Request.updates_eq htarget hallowed] at haccounts
        exact haccounts
      | some e =>
        simp only [hhead]
        exact hrefused (.failure e) (Response.status_failure_ne e)
    · rw [if_neg hallowed]
      cases s.refusal? r with
      | none => exact hrefused (.bare 405) (by decide)
      | some e => exact hrefused (.failure e) (Response.status_failure_ne e)

/-! ## Posts -/

/-- Who asks is what the headers say. -/
theorem refusal?_congr (s : Server) {r r' : Request} (h : r.headers = r'.headers) :
    s.refusal? r = s.refusal? r' := by
  unfold refusal? realIp? Request.header?
  rw [h]

/-- What is asked for by an allowed method, and not only for its head, is refused without
a trace, or served. -/
theorem answer_of_allowed {r : Request} {target : Target}
    (htarget : Target.ofPath? r.path = some target)
    (hallowed : target.allowed.contains r.method = true) (hhead : r.method ≠ "HEAD") :
    s.answer host r =
      match s.refusal? r with
      | some e => (.failure e, s, host)
      | none => s.serve host target r.body := by
  unfold answer
  cases s.refusal? r <;> simp only [htarget, hallowed, if_true, if_neg hhead]

/-- What is posted to a target is refused without a trace, or served. -/
theorem answer_posted {r : Request} {target : Target} (htarget : Target.ofPath? r.path = some target)
    (hread : target.isRead = false) (hmethod : r.method = "POST") :
    s.answer host r =
      match s.refusal? r with
      | some e => (.failure e, s, host)
      | none => s.serve host target r.body := by
  have hallowed : target.allowed.contains r.method = true := by
    rw [Target.allowed, hread, hmethod]
    rfl
  have hhead : r.method ≠ "HEAD" := by
    rw [hmethod]
    decide
  exact answer_of_allowed htarget hallowed hhead

/-- What is posted to a target and not refused is served. -/
theorem answer_post {r : Request} {target : Target} (htarget : Target.ofPath? r.path = some target)
    (hread : target.isRead = false) (hmethod : r.method = "POST")
    (hrefusal : s.refusal? r = none) : s.answer host r = s.serve host target r.body := by
  rw [answer_posted htarget hread hmethod, hrefusal]

/-- Whatever is answered as accepted was not refused. -/
theorem refusal?_of_status {r : Request} (h : (s.answer host r).1.status = 200) :
    s.refusal? r = none := by
  cases hrefusal : s.refusal? r with
  | none => rfl
  | some e =>
    exfalso
    apply Response.status_failure_ne e
    unfold answer at h
    simp only [hrefusal] at h
    split at h
    · exact h
    · split at h
      · split at h
        · exact h
        · exact h
      · exact h

/-- An update that is answered as accepted was posted. -/
theorem method_eq_of_status {r : Request} {target : Target}
    (htarget : Target.ofPath? r.path = some target) (hupdate : target.isUpdate = true)
    (h : (s.answer host r).1.status = 200) : r.method = "POST" := by
  by_cases hallowed : target.allowed.contains r.method = true
  · exact Target.method_eq_of_isUpdate hupdate hallowed
  · exfalso
    unfold answer at h
    simp only [htarget, hallowed, refusal?_of_status h] at h
    cases h

end Steps

/-! ## Runs -/

/-- The responses to requests one after the other, and what they leave behind. -/
def run (s : Server) (host : Host) : List Request → List Response × Server × Host
  | [] => ([], s, host)
  | r :: rs =>
    let next := s.answer host r
    let rest := run next.2.1 next.2.2 rs
    (next.1 :: rest.1, rest.2)

theorem run_cons (s : Server) (host : Host) (r : Request) (rs : List Request) :
    s.run host (r :: rs) =
      ((s.answer host r).1 :: ((s.answer host r).2.1.run (s.answer host r).2.2 rs).1,
        ((s.answer host r).2.1.run (s.answer host r).2.2 rs).2) :=
  rfl

/-- What a run leaves behind is what its accepted requests come to. -/
theorem leaves_run {s : Server} {host : Host} (h : s.Serves host) (rs : List Request) :
    s.Leaves (s.run host rs).2 ((s.board host).afterAll (rs.zip (s.run host rs).1)) := by
  induction rs generalizing s host with
  | nil => exact ⟨h, rfl, rfl⟩
  | cons r rs ih =>
    have hone := leaves_answer h r
    have hrest := ih hone.serves
    rw [hone.board] at hrest
    simp only [run_cons, List.zip_cons_cons, Board.afterAll_cons]
    exact ⟨hrest.serves, hrest.board, hrest.subnet.trans hone.subnet⟩

/-! ## Reading a value -/

/-- The address of a value, with its kind and its name written as segments. -/
def valueAddress (segment segment' : String) : String := "/value/" ++ segment ++ "/" ++ segment'

section Addresses

variable {segment segment' type name : String} (htype : Percent.Writes segment type)
  (hname : Percent.Writes segment' name)
include htype hname

/-- The path of a request for an address is that address. -/
theorem path_valueAddress (headers : List (String × String)) (body : Utf8.Bytes) :
    (⟨"GET", valueAddress segment segment', headers, body⟩ : Request).path =
      valueAddress segment segment' := by
  have hstart : "/value/".toList.all (fun c => c ≠ '?' && c ≠ '#') = true := by decide
  have hwithin {t u : String} (h : Percent.Writes t u) :
      ∀ c ∈ t.toList, (c ≠ '?' && c ≠ '#') = true := by
    intro c hc
    simpa using (h.within c hc).2
  apply Request.path_eq_address
  · simp [valueAddress]
  · intro c hc
    rw [valueAddress, String.toList_append, String.toList_append, String.toList_append,
      List.mem_append, List.mem_append, List.mem_append] at hc
    rcases hc with ((hc | hc) | hc) | hc
    · exact List.all_eq_true.1 hstart c hc
    · exact hwithin htype c hc
    · have hslash : c = '/' := by simpa using hc
      rw [hslash]
      rfl
    · exact hwithin hname c hc

/-- The address of a value leads to the value. -/
theorem ofPath?_valueAddress (hne : name ≠ "") :
    Target.ofPath? (valueAddress segment segment') = some (.valuePath segment segment') := by
  have hsegment : segment' ≠ "" := by
    rintro rfl
    have hempty : Percent.decode? (Utf8.encode "") = some "" := (Percent.writes_encode "").decode
    rw [hname.decode] at hempty
    exact hne (Option.some.inj hempty)
  have hparts : Text.splitAt '/' (valueAddress segment segment').toList =
      [[], "value".toList, segment.toList, segment'.toList] := by
    have htext : (valueAddress segment segment').toList =
        [] ++ '/' :: ("value".toList ++ '/' :: (segment.toList ++ '/' :: segment'.toList)) := by
      simp [valueAddress]
    rw [htext, Text.splitAt_append_cons List.not_mem_nil, Text.splitAt_append_cons (by decide),
      Text.splitAt_append_cons fun hmem => (htype.within '/' hmem).1 rfl,
      Text.splitAt_of_not_mem fun hmem => (hname.within '/' hmem).1 rfl]
  unfold Target.ofPath?
  rw [hparts]
  simp [hsegment]

end Addresses

/-- The name of a kind stands for itself in a path. -/
theorem writes_kind (kind : Kind) : Percent.Writes kind.name kind.name := by
  have hself : Percent.encode kind.name = kind.name := by
    cases kind <;> decide
  have hwrites := Percent.writes_encode kind.name
  rw [hself] at hwrites
  exact hwrites

theorem parameter_kind (name : String) (kind : Kind) :
    Http.parameter name kind.name = .ok kind.name := by
  rw [Http.parameter, (writes_kind kind).decode]

/-- The request for the value of a name, written as some segment. -/
def valueRequest (kind : Kind) (segment : String) (headers : List (String × String))
    (body : Utf8.Bytes) : Request :=
  ⟨"GET", "/value/" ++ kind.name ++ "/" ++ segment, headers, body⟩

theorem path_valueRequest {segment name : String} (h : Percent.Writes segment name) (kind : Kind)
    (headers : List (String × String)) (body : Utf8.Bytes) :
    (valueRequest kind segment headers body).path =
      "/value/" ++ kind.name ++ "/" ++ segment :=
  path_valueAddress (writes_kind kind) h headers body

/-- The path of such a request leads to the value. -/
theorem ofPath?_value {segment name : String} (h : Percent.Writes segment name) (hname : name ≠ "")
    (kind : Kind) :
    Target.ofPath? ("/value/" ++ kind.name ++ "/" ++ segment) =
      some (.valuePath kind.name segment) :=
  ofPath?_valueAddress (writes_kind kind) h hname

/-- Whoever may ask is told the value of a name, or that there is none. -/
theorem answer_valueRequest {s : Server} {host : Host} (h : s.Serves host)
    (hopen : s.subnet = none) {segment name : String} (hsegment : Percent.Writes segment name)
    (hname : name ≠ "") (kind : Kind) (headers : List (String × String)) (body : Utf8.Bytes) :
    (s.answer host (valueRequest kind segment headers body)).1 =
      match s.board host ⟨kind, name⟩ with
      | some v => .ok Response.plain v.canonical
      | none => .failure (Key.notFound ⟨kind, name⟩) := by
  rcases h with ⟨c, hserves⟩
  have hpath := path_valueRequest hsegment kind headers body
  have htarget := ofPath?_value hsegment hname kind
  have hrefusal : s.refusal? (valueRequest kind segment headers body) = none := by
    rw [refusal?, hopen]
  have hparameter : Http.parameter "name" segment = .ok name := by
    rw [Http.parameter, hsegment.decode]
  have hquery : (Message.query name kind.name).identity = .ok ⟨kind, name⟩ := by
    simp [Message.identity, Message.query, hname, bind, Except.bind]
  have hallowed : (Target.valuePath kind.name segment).allowed.contains
      (valueRequest kind segment headers body).method = true := rfl
  have hanswer : s.answer host (valueRequest kind segment headers body) =
      s.serve host (.valuePath kind.name segment) body := by
    unfold answer
    rw [hpath, htarget]
    simp only [hrefusal]
    rw [if_pos hallowed]
    rfl
  rw [hanswer, board_eq hserves]
  simp only [serve, parameter_kind, hparameter, bind, Except.bind, pure, Except.pure]
  show _ = match c.find? ⟨kind, name⟩ with
    | some v => Response.ok Response.plain v.canonical
    | none => Response.failure (Key.notFound ⟨kind, name⟩)
  cases hfind : c.find? ⟨kind, name⟩ with
  | none =>
    rw [Service.lookup_of_missing hserves.memory hquery hfind]
    rfl
  | some v =>
    rcases Service.lookup_of_find? hserves.memory hquery hfind with ⟨cell, hlookup, hcell⟩
    rw [hlookup]
    show Response.ok Response.plain (host.heap.get cell).value.canonical = _
    rw [hcell]

/-! ## The meaning of a run -/

/-- Whoever asks for a value is told what is on a board, however the name is
escaped (`Percent.writes_encode`: it can be). -/
def Tells (s : Server) (host : Host) (board : Board) : Prop :=
  ∀ (kind : Kind) (name segment : String) (headers : List (String × String)) (body : Utf8.Bytes),
    name ≠ "" → Percent.Writes segment name →
      let response := (s.answer host (valueRequest kind segment headers body)).1
      match board ⟨kind, name⟩ with
      | some v => response.status = 200 ∧ response.body = v.canonical
      | none => response.status = 404

/-- A request that is not for an update, and one that is not accepted, leaves a
board as it is. -/
def Keeps (s : Server) (host : Host) (board : Board) : Prop :=
  ∀ r : Request, r.isUpdate = false ∨ (s.answer host r).1.status ≠ 200 →
    (s.answer host r).2.1.board (s.answer host r).2.2 = board

/-- The board that the accepted requests of a run come to. -/
def accepted (s : Server) (host : Host) (rs : List Request) : Board :=
  Board.empty.afterAll (rs.zip (s.run host rs).1)

/-- After a run a server shows and tells what its accepted requests come to. -/
structure ShowsAccepted (s : Server) (host : Host) (rs : List Request) : Prop where
  answered : (s.run host rs).1.length = rs.length
  shows : (s.run host rs).2.1.board (s.run host rs).2.2 = s.accepted host rs
  keeps : (s.run host rs).2.1.Keeps (s.run host rs).2.2 (s.accepted host rs)
  tells : (s.run host rs).2.1.Tells (s.run host rs).2.2 (s.accepted host rs)

section Runs

variable {s : Server} {host : Host}

/-- A serving server that is open to everyone tells what its board shows. -/
theorem Serves.tells (h : s.Serves host) (hopen : s.subnet = none) : s.Tells host (s.board host) := by
  intro kind name segment headers body hname hsegment
  simp only [answer_valueRequest h hopen hsegment hname kind headers body]
  cases s.board host ⟨kind, name⟩ with
  | none => rfl
  | some v => exact ⟨rfl, rfl⟩

/-- A request that is no update, or one that is refused, leaves the board as it was. -/
theorem Serves.keeps (h : s.Serves host) : s.Keeps host (s.board host) := by
  intro r hr
  rw [(leaves_answer h r).board]
  rcases hr with hupdate | hstatus
  · exact Board.after_of_not_isUpdate _ hupdate _
  · exact Board.after_of_refused _ r hstatus

/-- Every request of a run is answered. -/
theorem length_run (s : Server) (host : Host) (rs : List Request) :
    (s.run host rs).1.length = rs.length := by
  induction rs generalizing s host with
  | nil => rfl
  | cons r rs ih => rw [run_cons, List.length_cons, List.length_cons, ih]

end Runs

/-- The server of a configuration, over some backup and for some subnet. -/
def fresh (config : Config.Server) (backup : Store) (subnet : Option Subnet) : Server :=
  ⟨config, ⟨.ofText? config.key, .«over» backup (.ofInterval config.storeInterval)⟩, subnet⟩

/-- Over a backup that was opened only the subnet can be at fault. -/
theorem withBackup_eq (config : Config.Server) (backup : Store) :
    withBackup config backup = (subnetOf config).map (fresh config backup) := by
  unfold withBackup
  cases subnetOf config with
  | error e => rfl
  | ok subnet => rfl

/-- With an interval between two backups, a server starts with an empty memory in
asynchronous mode. -/
theorem serves_fresh {config : Config.Server} (hasync : config.storeInterval ≠ 0)
    (backup : Store) (subnet : Option Subnet) (host : Host) :
    (fresh config backup subnet).Serves host := by
  refine ⟨[], ?_, Memory.holds_empty _⟩
  show SyncMode.ofInterval config.storeInterval = .asynchronous
  rw [SyncMode.ofInterval, if_neg hasync]

theorem board_fresh (config : Config.Server) (backup : Store) (subnet : Option Subnet)
    (host : Host) : (fresh config backup subnet).board host = Board.empty :=
  rfl

/-- A server in asynchronous mode that serves everyone starts with an empty
memory and takes any requests.  At every point it shows what the messages of
those that were answered as accepted come to, in their order.  No other request
changes that, and whoever asks for a value is told it. -/
theorem shows_accepted {config : Config.Server} (hasync : config.storeInterval ≠ 0)
    (hopen : config.trustedSubnet = none) (backup : Store) :
    ∃ s, withBackup config backup = .ok s ∧
      ∀ (host : Host) (rs : List Request), s.ShowsAccepted host rs := by
  have hsubnet : subnetOf config = .ok none := by
    rw [subnetOf, hopen]
  refine ⟨fresh config backup none, ?_, ?_⟩
  · rw [withBackup_eq, hsubnet]
    rfl
  intro host rs
  have hrun := leaves_run (serves_fresh hasync backup none host) rs
  rw [board_fresh] at hrun
  have hkeeps := hrun.serves.keeps
  have htells := hrun.serves.tells hrun.subnet
  rw [hrun.board] at hkeeps htells
  exact ⟨length_run _ host rs, hrun.board, hkeeps, htells⟩

/-- A server with a key that keeps no backup. -/
theorem shows_accepted_with_key :
    ∃ s, withBackup { Config.Server.default with key := some "key" } .disabled = .ok s ∧
      ∀ (host : Host) (rs : List Request), s.ShowsAccepted host rs :=
  @shows_accepted { Config.Server.default with key := some "key" } (by decide) rfl .disabled

end Server

end MetricRelay
