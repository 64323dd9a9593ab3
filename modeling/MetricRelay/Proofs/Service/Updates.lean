import MetricRelay.Proofs.Message.Binding
import MetricRelay.Proofs.Service

/-!
# Updates as a whole

A store in memory keeps the updates before one that it refuses.  The service
nevertheless takes a list of messages as a whole or not at all: no store that was
only reached through its own calls can refuse what was understood from messages.
What is answered to each message is the running total of its metric.

Main definitions:

- `Session.Reached`: a store and its host, after any calls with any results.
- `Store.board`: the values that a store shows.
- `Service.Tells`: what the answer to a message says.
- `Service.TakesWhole`: what is known of the answer to a list of messages.

Main results:

- `Session.Reached.holds`: what such a store holds is finite.
- `Signer.fault_of_fromMessage`: a message that is refused is its sender's fault.
- `Service.takes_whole`: messages are taken as a whole or not at all.
-/

namespace MetricRelay

/-! ## Refused messages -/

namespace Signer

variable {s : Signer} {m : Message} {e : Failure}

/-- A hash that does not fit is a fault of the request. -/
theorem fault_of_checkHash {n : Metric} {hash : Option String}
    (h : s.checkHash n hash = .error e) : e.fault = .badRequest := by
  cases hash with
  | none => cases h
  | some hash =>
    rcases s with ⟨key⟩
    cases key with
    | none => cases h
    | some key =>
      simp only [checkHash, isEnabled, Option.isSome_some, if_true, verify, sign, Except.map, bind,
        Except.bind] at h
      cases hdecode : Hex.decode? hash with
      | none =>
        rw [hdecode] at h
        cases h
        rfl
      | some tag =>
        simp only [hdecode] at h
        split at h
        · cases h
        · cases h
          rfl

/-- A message that is refused is its sender's fault, or asks for a kind that there
is not. -/
theorem fault_of_fromMessage (h : s.fromMessage m = .error e) :
    e.fault = .badRequest ∨ e.fault = .notImplemented := by
  unfold fromMessage Message.identity Kind.parse at h
  cases hkind : Kind.ofName? m.kind with
  | none =>
    simp only [hkind, bind, Except.bind, Except.error.injEq] at h
    rw [← h]
    exact Or.inr rfl
  | some kind =>
    left
    by_cases hid : m.id = ""
    · simp only [hkind, hid, if_true, bind, Except.bind, Except.error.injEq] at h
      rw [← h]
      rfl
    · simp only [hkind, if_neg hid, bind, Except.bind] at h
      cases hvalue : m.value? kind with
      | none =>
        simp only [hvalue, Except.error.injEq] at h
        rw [← h]
        rfl
      | some v =>
        cases hfinite : v.isFinite with
        | false =>
          simp only [hvalue, Value.finite_of_not_isFinite hfinite, Except.error.injEq] at h
          rw [← h]
          rfl
        | true =>
          simp only [hvalue, Value.finite_of_isFinite hfinite] at h
          cases hcheck : s.checkHash ⟨m.id, v⟩ m.hash with
          | ok u => simp [hcheck, pure, Except.pure] at h
          | error e' =>
            simp only [hcheck, Except.error.injEq] at h
            rw [← h]
            exact fault_of_checkHash hcheck

/-- The failure of a message is told as it is. -/
theorem asConversion_of_fromMessage (h : s.fromMessage m = .error e) : e.asConversion = e := by
  unfold Failure.asConversion
  rcases fault_of_fromMessage h with hfault | hfault
  · rw [hfault]
  · rw [hfault]

end Signer

/-! ## Stores that were reached -/

namespace Session

/-- A store that was blank at first, and its host, after any calls with any
results.  Clients make cells, and give any of them back.  A store that is not in
memory may go on in another process. -/
inductive Reached : Session → Prop
  | blank {store : Store} {host : Host} (blank : store.IsBlank host) : Reached ⟨store, host⟩
  | alloc {s : Session} (m : Metric) (before : Reached s) :
      Reached ⟨s.store, (s.host.alloc m).2⟩
  | add {s : Session} {hs : List Handle} (before : Reached s)
      (valid : ∀ x ∈ hs, x.index < s.host.heap.size) :
      Reached ⟨(s.store.add s.host hs).2.1, (s.store.add s.host hs).2.2⟩
  | get {s : Session} (key : Key) (before : Reached s) :
      Reached ⟨s.store, (s.store.get s.host key).2⟩
  | snapshot {s : Session} (before : Reached s) : Reached ⟨s.store, (s.store.snapshot s.host).2⟩
  | restore {s : Session} (content : Snapshot) (before : Reached s) :
      Reached ⟨(s.store.restore s.host content).2.1, (s.store.restore s.host content).2.2⟩
  | restarted {s : Session} (before : Reached s) (durable : ∀ m, s.store ≠ .memory m) :
      Reached ⟨s.store, s.host.restarted⟩

/-- What such a store holds is finite, whatever updates it was given. -/
theorem Reached.holds {s : Session} (h : Reached s) : ∃ c, s.Holds c ∧ c.Sound := by
  induction h with
  | blank blank => exact ⟨[], holds_of_isBlank blank, Content.sound_nil⟩
  | alloc m _ ih =>
    rcases ih with ⟨c, hholds, hc⟩
    exact ⟨c, hholds.congr rfl fun _ _ _ hget => Heap.get?_alloc hget m, hc⟩
  | add _ valid ih =>
    rcases ih with ⟨c, hholds, hc⟩
    rcases hholds.exists_add hc valid with ⟨c', hholds', hc', -⟩
    exact ⟨c', hholds', hc'⟩
  | get key _ ih =>
    rcases ih with ⟨c, hholds, hc⟩
    exact ⟨c, (hholds.follows hc.finite (.get key)).holds, hc⟩
  | snapshot _ ih =>
    rcases ih with ⟨c, hholds, hc⟩
    exact ⟨c, (hholds.follows hc.finite .snapshot).holds, hc⟩
  | restore content _ ih =>
    rcases ih with ⟨c, hholds, hc⟩
    exact hholds.exists_restore hc content
  | restarted _ durable ih =>
    rcases ih with ⟨c, hholds, hc⟩
    exact ⟨c, hholds.restarted durable, hc⟩

end Session

/-! ## What stores show -/

namespace Store

/-- The values that a store shows. -/
def board (s : Store) (host : Host) : Board := fun key =>
  let (result, host) := s.get host key
  (result.map fun h => (host.heap.get h).value).toOption

/-- A value as a store gives it: in a database, without the sign of a zero. -/
def readValue : Store → Value → Value
  | database _ => Value.unsignZero
  | memory _ | disabled | file _ | broken => id

/-- Reading back changes the values of a snapshot and none of its keys. -/
theorem find?_readBack (s : Store) (c : Content) (key : Key) :
    Content.find? (s.readBack c) key = (c.find? key).map s.readValue := by
  cases s with
  | database d => exact c.find?_map_unsignZero key
  | memory m => exact Option.map_id_apply.symm
  | disabled => exact Option.map_id_apply.symm
  | file f => exact Option.map_id_apply.symm
  | broken => exact Option.map_id_apply.symm

/-- A store shows a metric as it reads its value back. -/
theorem shown_metric (s : Store) (result : Outcome Metric) :
    s.shown (.metric result) =
      .metric (result.map fun m => ⟨m.name, s.readValue m.value⟩) := by
  cases s with
  | database d => rfl
  | memory m => cases result <;> rfl
  | disabled => cases result <;> rfl
  | file f => cases result <;> rfl
  | broken => cases result <;> rfl

end Store

namespace Session

variable {s s' : Session} {c : Content}

/-- A store that keeps its kind reads values back as before. -/
theorem Spares.readValue_eq (h : Spares s s') : s'.store.readValue = s.store.readValue := by
  cases h with
  | memory disk cells => rfl
  | other others cells => rfl

/-- A store shows what it holds, as it gives it. -/
theorem Holds.board_eq (h : s.Holds c) (hc : c.IsFinite) :
    s.store.board s.host = Content.board (s.store.readBack c) := by
  funext key
  have hanswer := (h.follows hc (.get key)).answer_eq
  rw [Content.answer, Store.shown_metric] at hanswer
  have hresult : (s.store.get s.host key).1.map (s.store.get s.host key).2.heap.get =
      (c.get key).map fun m => ⟨m.name, s.store.readValue m.value⟩ := Answer.metric.inj hanswer
  show ((s.store.get s.host key).1.map fun x =>
      ((s.store.get s.host key).2.heap.get x).value).toOption =
    Content.find? (s.store.readBack c) key
  rw [Store.find?_readBack]
  rw [Content.get] at hresult
  rcases hget : s.store.get s.host key with ⟨result, host⟩
  rw [hget] at hresult
  cases hfind : c.find? key with
  | none =>
    rw [hfind] at hresult
    cases result with
    | error e => rfl
    | ok x => cases hresult
  | some v =>
    rw [hfind] at hresult
    cases result with
    | error e => cases hresult
    | ok x =>
      have hcell := Except.ok.inj hresult
      exact congrArg (fun m : Metric => some m.value) hcell

end Session

/-! ## Updates -/

namespace Content

/-- Each answer is what its key holds after the updates up to it. -/
theorem find?_add_take (ms : List Metric) (c : Content) {i : Nat} (hi : i < ms.length)
    (hi' : i < (add ms c).1.length) :
    (add ms c).1[i].key = ms[i].key ∧
      find? (add (ms.take (i + 1)) c).2 ms[i].key = some (add ms c).1[i].value := by
  induction ms generalizing c i with
  | nil => cases hi
  | cons m ms ih =>
    cases i with
    | zero =>
      refine ⟨c.key_next m, ?_⟩
      show (c.put (c.next m)).find? m.key = some (c.next m).value
      rw [find?_put, c.key_next m, if_pos rfl]
    | succ i => exact ih (c.put (c.next m)) (Nat.lt_of_succ_lt_succ hi) (Nat.lt_of_succ_lt_succ hi')

end Content

namespace Session

variable {s : Session} {c : Content}

/-- Finite metrics in fresh cells are added to the content. -/
theorem Holds.add_allocAll (h : s.Holds c) (hc : c.IsFinite) {ms : List Metric}
    (hfinite : ∀ n ∈ ms, n.value.isFinite = true) :
    ∃ answers, ∃ s' : Session, s.store.add (s.host.allocAll ms).2 (s.host.allocAll ms).1 =
        (.ok answers, s'.store, s'.host) ∧ s'.Holds (Content.add ms c).2 ∧
      s'.host.getAll answers = (Content.add ms c).1 ∧ s'.store.readValue = s.store.readValue := by
  have hholds : Holds ⟨s.store, (s.host.allocAll ms).2⟩ c :=
    h.congr rfl fun _ _ _ hget => Heap.get?_allocAll hget ms
  have hgiven : Given ⟨s.store, (s.host.allocAll ms).2⟩ (s.host.allocAll ms).1 ms := by
    have hout : ∀ x ∈ (s.host.allocAll ms).1, x ∉ s.store.handles := by
      intro x hx hmem
      rcases h.exists_get? hmem with ⟨n, hget⟩
      exact Heap.not_mem_allocAll hget ms hx
    exact ((List.forall₂_and_left _ _).2 ⟨hout, s.host.heap.shows_allocAll ms⟩).imp
      fun _ _ hx => ⟨hx.2, hx.1⟩
  rcases hholds.add hc hgiven hfinite with ⟨answers, s', hadd, hholds', hanswers, hspares⟩
  exact ⟨answers, s', hadd, hholds', hanswers, hspares.readValue_eq⟩

end Session

/-- A message carries a value in the field of its kind, and nothing in the other
one. -/
def Message.Carries (m : Message) : Value → Prop
  | .total n => m.delta = some n ∧ m.value = none
  | .reading x => m.delta = none ∧ m.value = some x

/-- The message of a metric carries its value. -/
theorem Signer.carries_message (s : Signer) (m : Metric) : (s.message m).Carries m.value := by
  rcases m with ⟨name, v⟩
  cases v with
  | total n => exact ⟨rfl, rfl⟩
  | reading x => exact ⟨rfl, rfl⟩

namespace Service

variable {s : Service Store} {host : Host} {c : Content}

/-- If one message is refused, all of them are, and nothing changes. -/
theorem update_of_refused {messages : List Message} {e : Failure}
    (h : s.signer.fromMessages messages = .error e) :
    s.update host messages = (.error e, s, host) := by
  rcases exists_of_mapM_eq_error h with ⟨i, hi, -, hfail⟩
  rw [update_of_error h, Signer.asConversion_of_fromMessage hfail]

/-- Messages without a fault are all taken, and answered by what their metrics come to. -/
theorem update_of_accepted {messages : List Message} {metrics : List Metric}
    (hholds : Session.Holds ⟨s.store, host⟩ c) (hc : c.IsFinite)
    (h : s.signer.fromMessages messages = .ok metrics) :
    ∃ s' host', s.update host messages =
        (.ok ((Content.add metrics c).1.map s.signer.message), s', host') ∧
      Session.Holds ⟨s'.store, host'⟩ (Content.add metrics c).2 ∧
      s'.store.readValue = s.store.readValue := by
  rcases hholds.add_allocAll hc (Signer.isFinite_of_fromMessages h) with
    ⟨answers, t, hadd, hholds', hanswers, hread⟩
  exact ⟨{ s with store := t.store }, t.host, update_of_add h hadd hanswers, hholds', hread⟩

/-- The answer to the last of some messages that are taken: it names the metric,
carries the value that the messages come to and that the store then holds, and
would be accepted itself. -/
structure Tells (s : Service Store) (host : Host) (taken : List Message) (m answer : Message)
    (v : Value) : Prop where
  id : answer.id = m.id
  kind : answer.kind = m.kind
  kind_value : v.kind.name = m.kind
  carries : answer.Carries v
  total : (s.store.board host).takeAll taken ⟨v.kind, m.id⟩ = some v
  held : (s.update host taken).2.1.store.board (s.update host taken).2.2 ⟨v.kind, m.id⟩ =
    some (s.store.readValue v)
  signed : answer.hash.isSome = s.signer.isEnabled
  accepted : s.signer.fromMessage answer = .ok ⟨m.id, v⟩

/-- Messages are taken if every one of them is accepted, and then each is answered
by what the messages up to it come to.  Otherwise the first one that is refused
decides, it is its sender's fault, and nothing changes. -/
structure TakesWhole (s : Service Store) (host : Host) (messages : List Message) : Prop where
  taken : (∃ answers, (s.update host messages).1 = .ok answers) ↔
    ∀ m ∈ messages, ∃ n, s.signer.fromMessage m = .ok n
  answers : ∀ answers, (s.update host messages).1 = .ok answers →
    answers.length = messages.length ∧
      ∀ i (hi : i < messages.length) (hi' : i < answers.length),
        ∃ v, s.Tells host (messages.take (i + 1)) messages[i] answers[i] v
  refused : ∀ e, (s.update host messages).1 = .error e →
    (∃ i, ∃ hi : i < messages.length,
      (∀ m ∈ messages.take i, ∃ n, s.signer.fromMessage m = .ok n) ∧
        s.signer.fromMessage messages[i] = .error e) ∧
    (e.fault = .badRequest ∨ e.fault = .notImplemented) ∧ (s.update host messages).2 = (s, host)

section

variable {messages : List Message} {metrics : List Metric}

/-- The answers are the messages of what each metric comes to. -/
theorem tells_message (hholds : Session.Holds ⟨s.store, host⟩ c) (hc : c.Sound)
    (hboard : s.store.board host = Content.board c)
    (h : s.signer.fromMessages messages = .ok metrics) {i : Nat} (hi : i < messages.length)
    (hi' : i < (Content.add metrics c).1.length) :
    s.Tells host (messages.take (i + 1)) messages[i]
      (s.signer.message (Content.add metrics c).1[i]) (Content.add metrics c).1[i].value := by
  have hlength := Signer.length_fromMessages h
  have hi'' : i < metrics.length := hlength.symm ▸ hi
  have hread : s.signer.fromMessage messages[i] = .ok metrics[i] :=
    (List.forall₂_iff_get.1 (forall₂_of_mapM h)).2 i hi hi''
  have htake : s.signer.fromMessages (messages.take (i + 1)) = .ok (metrics.take (i + 1)) :=
    mapM_take h (i + 1)
  rcases Signer.fromMessage_eq_ok hread with ⟨hkind, hid, hne, -, -⟩
  rcases Content.find?_add_take metrics c hi'' hi' with ⟨hkey, hfind⟩
  generalize hanswer : (Content.add metrics c).1[i] = n at hkey hfind ⊢
  have hname : n.name = messages[i].id := (congrArg Key.name hkey).trans hid.symm
  have hkindName : n.kind.name = messages[i].kind := by
    rw [← Kind.ofName?_eq_some_iff.1 hkind]
    exact congrArg (fun key : Key => key.kind.name) hkey
  have hkey' : (⟨n.value.kind, messages[i].id⟩ : Key) = n.key := by
    rw [← hname]
    rfl
  have hsound := hc.add (Signer.isFinite_of_fromMessages htake)
  rw [← hkey] at hfind
  have hfinite := hsound.finite n (hsound.distinct.find?_eq_some_iff.1 hfind)
  rcases update_of_accepted hholds hc.finite htake with ⟨s', host', hupdate, hholds', hvalue⟩
  refine ⟨?_, ?_, hkindName, s.signer.carries_message n, ?_, ?_, ?_, ?_⟩
  · rw [Signer.message_id, hname]
  · rw [Signer.message_kind, hkindName]
  · rw [hboard, ← Content.board_add htake c, hkey']
    exact hfind
  · rw [hupdate, hkey']
    show s'.store.board host' n.key = _
    rw [hholds'.board_eq hsound.finite]
    show Content.find? (s'.store.readBack _) n.key = _
    rw [Store.find?_readBack, hfind, hvalue]
    rfl
  · rw [Signer.message, Option.isSome_map]
    rfl
  · rw [s.signer.fromMessage_message (hname ▸ hne) hfinite, ← hname]

/-- A store in memory, in a file or in a database that was only reached through its
own calls takes messages as a whole or not at all. -/
theorem takes_whole (h : Session.Reached ⟨s.store, host⟩) (messages : List Message) :
    s.TakesWhole host messages := by
  rcases h.holds with ⟨c, hholds, hc⟩
  have hback := hholds.readBack
  have hsound := s.store.sound_readBack hc
  have hboard := hholds.board_eq hc.finite
  cases hread : s.signer.fromMessages messages with
  | error e =>
    rcases exists_of_mapM_eq_error hread with ⟨i, hi, hbefore, hfail⟩
    have hupdate : s.update host messages = (.error e, s, host) := update_of_refused hread
    refine ⟨?_, ?_, ?_⟩
    · constructor
      · rintro ⟨answers, hanswers⟩
        rw [hupdate] at hanswers
        cases hanswers
      · intro hall
        rcases hall messages[i] (List.getElem_mem hi) with ⟨n, hn⟩
        rw [hfail] at hn
        cases hn
    · intro answers hanswers
      rw [hupdate] at hanswers
      cases hanswers
    · intro e' herror
      rw [hupdate] at herror ⊢
      cases herror
      exact ⟨⟨i, hi, hbefore, hfail⟩, Signer.fault_of_fromMessage hfail, rfl⟩
  | ok metrics =>
    rcases update_of_accepted hback hsound.finite hread with ⟨s', host', hupdate, -⟩
    refine ⟨?_, ?_, ?_⟩
    · constructor
      · rintro - m hm
        rcases exists_mem_of_mapM hread hm with ⟨n, -, hn⟩
        exact ⟨n, hn⟩
      · intro _
        rw [hupdate]
        exact ⟨_, rfl⟩
    · intro answers hanswers
      rw [hupdate] at hanswers
      cases hanswers
      refine ⟨?_, fun i hi hi' => ?_⟩
      · rw [List.length_map, Content.length_add, Signer.length_fromMessages hread]
      · rw [List.getElem_map]
        exact ⟨_, tells_message hback hsound hboard hread hi _⟩
    · intro e herror
      rw [hupdate] at herror
      cases herror

/-- A store in memory that has kept a total before a reading which is no number
takes two totals and a reading, and would not take a message of no kind. -/
theorem takes_whole_after_refused_add :
    let host := ((Host.ofDisk (.withDirectory ["data"])).alloc ⟨"polls", .total (.clamp 5)⟩).2
    let host := (host.alloc ⟨"load", .reading .nan⟩).2
    let added := (Store.memory .empty).add host [⟨0⟩, ⟨1⟩]
    let s : Service Store := ⟨.ofText? (some "key"), added.2.1⟩
    let polls : Message := ⟨"polls", "counter", some (.clamp 7), none, none⟩
    let load : Message := ⟨"load", "gauge", none, some (.zero true), none⟩
    s.TakesWhole added.2.2 [polls, load, polls] ∧
      s.TakesWhole added.2.2 [polls, ⟨"polls", "timer", none, none, none⟩] := by
  intro host₁ host added s polls load
  have hempty : (Store.memory .empty).IsBlank (.ofDisk (.withDirectory ["data"])) := rfl
  have hgiven : Session.Reached ⟨.memory .empty, host⟩ := .alloc _ (.alloc _ (.blank hempty))
  have hvalid : ∀ x ∈ ([⟨0⟩, ⟨1⟩] : List Handle), x.index < host.heap.size := by decide
  have hadded : Session.Reached ⟨s.store, added.2.2⟩ := .add hgiven hvalid
  exact ⟨takes_whole hadded _, takes_whole hadded _⟩

end

end Service

end MetricRelay
