import MetricRelay.Proofs.Http.Blame
import MetricRelay.Proofs.Http.Numerals
import MetricRelay.Proofs.Http.Reached
import MetricRelay.Proofs.Message.Lengths
import MetricRelay.Proofs.Report

/-!
# The ways to read a value

What is known of a metric can be asked for in a path, which is answered by a plain
text, and in a body, which is answered by a message, and it stands in a row of the
report.  The text is printed from a live cell, the number of the message has another
notation, and the row is escaped and comes from a snapshot.  Still all three say the
same of every metric, whatever has happened to the server before.

Main definitions:

- `Http.Request.Reads`: three requests for what is known of one metric.
- `Server.TellsValue`: three responses tell one value.
- `Server.ReadsAgree`: three requests are answered by the same value, or by none.

Main results:

- `Server.reads_requests`: every metric can be asked for in the three ways.
- `Server.readings_agree`: the three ways agree at every point.
-/

namespace MetricRelay

open Http (Request Response Target)

/-! ## Three requests -/

/-- Three requests of one client for what is known of a metric: by a path, from whose
parts its kind and its name are read as texts, by a body, and for the report. -/
structure Http.Request.Reads (type name : String) (byPath byBody page : Request) : Prop where
  path_target : ∃ segment segment',
    Target.ofPath? byPath.path = some (.valuePath segment segment') ∧
    Http.parameter "mtype" segment = .ok type ∧ Http.parameter "name" segment' = .ok name
  path_method : byPath.method = "GET"
  body_target : Target.ofPath? byBody.path = some .valueOne
  body_method : byBody.method = "POST"
  body_small : byBody.body.length ≤ Server.greatestBody
  body_query : ∃ query, Message.decodeOne byBody.body = .ok query ∧ query.id = name ∧
    query.kind = type
  page_target : Target.ofPath? page.path = some .report
  page_method : page.method = "GET"
  client : Server.realIp? byBody = Server.realIp? byPath ∧
    Server.realIp? page = Server.realIp? byPath

namespace Server

section

variable {segment segment' type name : String}

/-- Every metric can be asked for in the three ways, however its kind and its name are
escaped, if the address is shorter than `0x10000` bytes: then the body is not too large. -/
theorem reads_requests (htype : Percent.Writes segment type) (hname : Percent.Writes segment' name)
    (hne : name ≠ "")
    (hshort : (Utf8.encode (valueAddress segment segment')).length < 0x10000)
    (headers : List (String × String)) :
    Request.Reads type name ⟨"GET", valueAddress segment segment', headers, []⟩
      ⟨"POST", "/value", headers, Utf8.encodeChars (Message.query name type).json⟩
      ⟨"GET", "/", headers, []⟩ where
  path_target := by
    refine ⟨segment, segment', ?_, ?_, ?_⟩
    · rw [path_valueAddress htype hname]
      exact ofPath?_valueAddress htype hname hne
    · rw [Http.parameter, htype.decode]
    · rw [Http.parameter, hname.decode]
  path_method := rfl
  body_target := by
    have htarget : Target.ofPath? (⟨"POST", "/value", [], []⟩ : Request).path = some .valueOne := by
      decide
    exact htarget
  body_method := rfl
  body_small := by
    have hbody := Message.length_query_le name type
    have htexts := Nat.add_le_add htype.length_le hname.length_le
    have haddress : (Utf8.encode segment).length + (Utf8.encode segment').length ≤
        (Utf8.encode (valueAddress segment segment')).length := by
      simp only [valueAddress, Utf8.encode, String.toList_append, Utf8.encodeChars_append,
        List.length_append]
      omega
    have hlimit : 6 * 0x10000 + 19 ≤ greatestBody := by decide
    show (Utf8.encodeChars (Message.query name type).json).length ≤ greatestBody
    omega
  body_query := ⟨_, Message.decodeOne_json _, rfl, rfl⟩
  page_target := by
    have htarget : Target.ofPath? (⟨"GET", "/", [], []⟩ : Request).path = some .report := by decide
    exact htarget
  page_method := rfl
  client := ⟨rfl, rfl⟩

end

end Server

/-! ## One question -/

/-- A question is about a metric, unless it has no such kind or no name. -/
theorem Message.identity_cases (m : Message) : (∃ e, m.identity = .error e) ∨
    ∃ kind : Kind, kind.name = m.kind ∧ m.id ≠ "" ∧ m.identity = .ok ⟨kind, m.id⟩ := by
  unfold identity Kind.parse
  cases hkind : Kind.ofName? m.kind with
  | none => exact .inl ⟨_, rfl⟩
  | some kind =>
    by_cases hid : m.id = ""
    · simp only [bind, Except.bind, if_pos hid]
      exact .inl ⟨_, rfl⟩
    · simp only [bind, Except.bind, if_neg hid]
      exact .inr ⟨kind, Kind.ofName?_eq_some_iff.1 hkind, hid, rfl⟩

/-- What a question finds in a content. -/
def Content.ask (c : Content) (query : Message) : Outcome Metric :=
  query.identity.mapError Failure.asConversion >>= c.get

/-- A question is found wrong, or it finds what is under its key. -/
theorem Content.ask_cases (c : Content) (query : Message) :
    (∃ e, c.ask query = .error e ∧ e.IsClients) ∨
      ∃ kind : Kind, kind.name = query.kind ∧ query.id ≠ "" ∧
        c.ask query = c.get ⟨kind, query.id⟩ := by
  unfold ask
  rcases query.identity_cases with ⟨e, he⟩ | ⟨kind, hkind, hid, hidentity⟩
  · rw [he]
    exact .inl ⟨_, rfl, e.isClients_asConversion⟩
  · rw [hidentity]
    exact .inr ⟨kind, hkind, hid, rfl⟩

/-- Only the kind and the name of a question count. -/
theorem Content.ask_congr (c : Content) {query query' : Message} (hid : query.id = query'.id)
    (hkind : query.kind = query'.kind) : c.ask query = c.ask query' := by
  unfold ask Message.identity
  rw [hid, hkind]

namespace Server

section

variable {s : Server} {host : Host} {c : Content} {type name : String}
  {byPath byBody page : Request}

/-- A question is refused, or answered by what it finds. -/
theorem ofOutcome_ask (h : Memory.Holds host.heap s.store.memory c) (query : Message)
    (ok : Metric → Response) :
    Response.ofOutcome (s.service.lookup host query).1 (fun cell => ok (host.heap.get cell)) =
      .ofOutcome (c.ask query) ok := by
  have hfound := s.ofOutcome_lookup host query ok
  rw [Service.lookup_snd, Service.map_get_lookup h] at hfound
  exact hfound

/-- What a client is told, or why it is refused. -/
def tellOrRefuse (s : Server) (r : Request) (told : Response) : Response :=
  match s.refusal? r with
  | some e => .failure e
  | none => told

/-- The request by path is answered by the text of what is found. -/
theorem answer_byPath (h : Memory.Holds host.heap s.store.memory c)
    (hreads : Request.Reads type name byPath byBody page) :
    (s.answer host byPath).1 = s.tellOrRefuse byPath
      (.ofOutcome (c.ask (.query name type)) fun m => .ok Response.plain m.value.canonical) := by
  rcases hreads.path_target with ⟨segment, segment', htarget, htype, hname⟩
  have hallowed : (Target.valuePath segment segment').allowed.contains byPath.method = true := by
    rw [hreads.path_method]
    rfl
  have hhead : byPath.method ≠ "HEAD" := by
    rw [hreads.path_method]
    decide
  rw [answer_of_allowed htarget hallowed hhead, tellOrRefuse]
  cases s.refusal? byPath with
  | some e => rfl
  | none =>
    simp only [serve, htype, hname, bind, Except.bind, pure, Except.pure, Service.lookup_snd]
    exact ofOutcome_ask h _ fun m => .ok Response.plain m.value.canonical

/-- The request by body is answered by a message of what is found. -/
theorem answer_byBody (h : Memory.Holds host.heap s.store.memory c)
    (hreads : Request.Reads type name byPath byBody page) :
    (s.answer host byBody).1 = s.tellOrRefuse byPath
      (.ofOutcome (c.ask (.query name type)) fun m =>
        .ok Response.json (String.ofList (s.service.signer.message m).json)) := by
  rcases hreads.body_query with ⟨query, hdecode, hid, hkind⟩
  have hrefusal : s.refusal? byBody = s.refusal? byPath := by
    unfold refusal?
    rw [hreads.client.1]
  rw [answer_posted hreads.body_target rfl hreads.body_method, tellOrRefuse, hrefusal]
  cases s.refusal? byPath with
  | some e => rfl
  | none =>
    simp only [serve, if_neg (Nat.not_lt.2 hreads.body_small), hdecode]
    have hask : c.ask query = c.ask (.query name type) := c.ask_congr hid hkind
    rw [ofOutcome_lookupMessage, ← hask]
    exact ofOutcome_ask h query fun m =>
      .ok Response.json (String.ofList (s.service.signer.message m).json)

/-- The request for the report is answered by a page of all metrics. -/
theorem answer_page (h : Memory.Holds host.heap s.store.memory c)
    (hreads : Request.Reads type name byPath byBody page) :
    (s.answer host page).1 = s.tellOrRefuse byPath
      (.ok Response.page (Report.render (Snapshot.ofMetrics c))) := by
  have hallowed : Target.report.allowed.contains page.method = true := by
    rw [hreads.page_method]
    rfl
  have hhead : page.method ≠ "HEAD" := by
    rw [hreads.page_method]
    decide
  have hrefusal : s.refusal? page = s.refusal? byPath := by
    unfold refusal?
    rw [hreads.client.2]
  rw [answer_of_allowed hreads.page_target hallowed hhead, tellOrRefuse, hrefusal]
  cases s.refusal? byPath with
  | some e => rfl
  | none => exact congrArg (fun t => Response.ok Response.page (Report.render t)) h.snapshot_eq

/-! ## Agreement -/

/-- Three responses tell one value of a metric: a text is its canonical form, from
which it is read back bit for bit, a message carries it, and its row is the only one of the
metric on a page and shows that text.  If there is a key, the message is signed and would be
accepted. -/
structure TellsValue (signer : Signer) (type name : String) (v : Value)
    (text message page : String) : Prop where
  kind : v.kind.name = type
  canonical : text = v.canonical
  parsed : Value.parse v.kind text = .ok v
  carried : ∃ m, Message.decodeOne (Utf8.encode message) = .ok m ∧ m.id = name ∧ m.kind = type ∧
    m.Carries v ∧ m.hash.isSome = signer.isEnabled ∧ signer.fromMessage m = .ok ⟨name, v⟩
  row : Report.shown page type name = [text]

/-- Three requests for a metric agree: those by path and by body have one status, and if it
is that of success all three tell the value that the server has.  If the metric is missing,
the page has no row of it. -/
structure ReadsAgree (s : Server) (host : Host) (type name : String)
    (byPath byBody page : Request) : Prop where
  status : (s.answer host byBody).1.status = (s.answer host byPath).1.status
  found : (s.answer host byPath).1.status = 200 → (s.answer host page).1.status = 200 ∧
    ∃ v, s.board host ⟨v.kind, name⟩ = some v ∧
      TellsValue s.service.signer type name v (s.answer host byPath).1.body
        (s.answer host byBody).1.body (s.answer host page).1.body
  missing : (s.answer host byPath).1.status = 404 → (s.answer host page).1.status = 200 ∧
    Report.shown (s.answer host page).1.body type name = []

/-- The three forms of a value that a content holds. -/
theorem tellsValue_of_find? (signer : Signer) (hc : c.Sound) {v : Value} (hname : name ≠ "")
    (hkind : v.kind.name = type) (hfind : c.find? ⟨v.kind, name⟩ = some v) :
    TellsValue signer type name v v.canonical (String.ofList (signer.message ⟨name, v⟩).json)
      (Report.render (Snapshot.ofMetrics c)) := by
  have hfinite : v.isFinite = true :=
    hc.finite ⟨name, v⟩ (hc.distinct.find?_eq_some_iff.1 hfind)
  refine ⟨hkind, rfl, Value.parse_canonical hfinite, ⟨signer.message ⟨name, v⟩, ?_⟩, ?_⟩
  · rw [Utf8.encode, String.toList_ofList, Message.decodeOne_json,
      Message.received_eq_self (signer.isFinite_message hfinite)]
    refine ⟨rfl, signer.message_id _, (signer.message_kind _).trans hkind,
      signer.carries_message _, ?_, signer.fromMessage_message hname hfinite⟩
    rw [Signer.message, Option.isSome_map]
    rfl
  · rw [Report.shown_render, Snapshot.lookup?_ofMetrics hc.distinct,
      Kind.ofName?_eq_some_iff.2 hkind, Option.bind_some, hfind]
    rfl

/-- Requests that are turned down for one reason agree, if it is not that the metric is
missing. -/
theorem readsAgree_of_failure {e : Failure} (hpath : (s.answer host byPath).1 = .failure e)
    (hbody : (s.answer host byBody).1 = .failure e) (hstatus : (Response.failure e).status ≠ 404) :
    s.ReadsAgree host type name byPath byBody page where
  status := by rw [hpath, hbody]
  found := by
    intro hok
    rw [hpath] at hok
    exact absurd hok (Response.status_failure_ne e)
  missing := by
    intro hmissing
    rw [hpath] at hmissing
    exact absurd hmissing hstatus

/-- In every state that a server reaches, the three ways to read a value agree, for
whatever kind and name (`reads_requests`: they can be asked for). -/
theorem readings_agree (h : s.Reached host)
    (hreads : Request.Reads type name byPath byBody page) :
    s.ReadsAgree host type name byPath byBody page := by
  rcases h.keeps.memory with ⟨c, hholds, hc⟩
  have hpath := answer_byPath hholds hreads
  have hbody := answer_byBody hholds hreads
  have hpage := answer_page hholds hreads
  -- All three come from one content, unless the client is refused or the question is wrong.
  cases hrefusal : s.refusal? byPath with
  | some e =>
    simp only [tellOrRefuse, hrefusal] at hpath hbody
    refine readsAgree_of_failure hpath hbody ?_
    show e.fault.status ≠ 404
    rw [fault_of_refusal? hrefusal]
    decide
  | none =>
    simp only [tellOrRefuse, hrefusal] at hpath hbody hpage
    rcases c.ask_cases (.query name type) with ⟨e, hask, he⟩ | ⟨kind, rfl, hname, hask⟩
    · rw [hask] at hpath hbody
      refine readsAgree_of_failure hpath hbody ?_
      rcases Response.status_of_isClients he with hstatus | hstatus <;> rw [hstatus] <;> decide
    · rw [hask, Content.get] at hpath hbody
      cases hfind : c.find? ⟨kind, name⟩ with
      | none =>
        have hrow : Report.shown (Report.render (Snapshot.ofMetrics c)) kind.name name = [] := by
          rw [Report.shown_render, Snapshot.lookup?_ofMetrics hc.distinct, Kind.ofName?_name,
            Option.bind_some, hfind]
          rfl
        simp only [Message.query, hfind] at hpath hbody
        refine ⟨by rw [hpath, hbody]; rfl, fun hok => ?_, fun _ => ?_⟩
        · rw [hpath] at hok
          cases hok
        · rw [hpage]
          exact ⟨rfl, hrow⟩
      | some v =>
        obtain rfl : v.kind = kind := Content.kind_of_find? hfind
        have hboard : s.board host ⟨v.kind, name⟩ = some v := by
          rw [board_of_holds hholds]
          exact hfind
        simp only [Message.query, hfind] at hpath hbody
        refine ⟨by rw [hpath, hbody]; rfl, fun _ => ?_, fun hmissing => ?_⟩
        · rw [hpath, hbody, hpage]
          exact ⟨rfl, v, hboard, tellsValue_of_find? _ hc hname rfl hfind⟩
        · rw [hpath] at hmissing
          cases hmissing

/-- A server with a key that was sent a reading under a name of markup.  The text of the
reading is longer than its number in a message, and there is no total of that name. -/
theorem readings_agree_of_markup :
    let built := fresh { Config.Server.default with key := some "key" } .disabled none
    let host := Host.ofDisk (.withDirectory ["data"])
    let name := "<td>/&amp;\"ü\""
    let next := (built.answer host (updateRequest .gauge (Percent.encode name) "1e21" [] [])).2
    let byPath (kind : Kind) : Request :=
      ⟨"GET", valueAddress (Percent.encode kind.name) (Percent.encode name), [], []⟩
    let byBody (kind : Kind) : Request :=
      ⟨"POST", "/value", [], Utf8.encodeChars (Message.query name kind.name).json⟩
    let page : Request := ⟨"GET", "/", [], []⟩
    next.1.Reached next.2 ∧
      (∀ kind : Kind, Request.Reads kind.name name (byPath kind) (byBody kind) page ∧
        next.1.ReadsAgree next.2 kind.name name (byPath kind) (byBody kind) page) ∧
      (next.1.answer next.2 (byPath .gauge)).1 = .ok Response.plain "1000000000000000000000" ∧
      (next.1.answer next.2 (byPath .counter)).1.status = 404 := by
  intro built host name next byPath byBody page
  have hbuilt : withBackup built.config .disabled = .ok built := rfl
  have hidle : Store.disabled.IsIdle := trivial
  have hreached : next.1.Reached next.2 := .answer _ (.built (.inr hidle) hbuilt)
  have hreads (kind : Kind) : Request.Reads kind.name name (byPath kind) (byBody kind) page := by
    refine reads_requests (Percent.writes_encode _) (Percent.writes_encode _) (by decide) ?_ []
    cases kind <;> decide +kernel
  refine ⟨hreached, fun kind => ⟨hreads kind, readings_agree hreached (hreads kind)⟩, ?_⟩
  decide +kernel

end

end Server

end MetricRelay
