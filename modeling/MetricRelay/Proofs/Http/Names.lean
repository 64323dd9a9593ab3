import MetricRelay.Proofs.Http.Numerals
import MetricRelay.Proofs.Http.Reached

/-!
# Names in paths

The name of a metric may be any text that is not empty: also one with slashes, question
marks and signs of escapes, as long as they are escaped in the path.  However the name
is spelled when an update is sent, and however it is spelled when its value is asked
for, both speak of the same metric, and never of another one.

Main definitions:

- `Server.Takes`: a request is an update of one metric and of no other.

Main results:

- `Server.answer_updateRequest`: an update in a path is taken for its name.
- `Server.names_travel`: every name travels through paths.
-/

namespace MetricRelay

open Http (Request Response Target)
open Percent (Spells)

/-! ## Updates in a path -/

/-- No value is read from the empty text. -/
theorem Value.ne_empty_of_parse {kind : Kind} {raw : String} {v : Value}
    (h : parse kind raw = .ok v) : raw ≠ "" := by
  rintro rfl
  cases kind <;> cases h

/-- The message of a value is accepted as it is, whatever the key. -/
theorem Signer.fromMessage_ofValue (s : Signer) {name : String} {v : Value} (hname : name ≠ "")
    (hfinite : v.isFinite = true) : s.fromMessage (.ofValue name v) = .ok ⟨name, v⟩ := by
  have hvalue : v.finite = .ok v := Value.finite_of_isFinite hfinite
  cases v <;>
    simp [fromMessage, Message.identity, Message.ofValue, Message.query, Message.value?, hname,
      hvalue, checkHash, bind, Except.bind, pure, Except.pure]

namespace Server

/-- A request is accepted as an update of one metric.  Whoever asks for the metric is then
told the value on top of what it was, and is told of any other what was told before,
however the names are spelled in the questions. -/
structure Takes (s : Server) (host : Host) (r : Request) (key : Key) (v : Value) : Prop where
  accepted : (s.answer host r).1 = .ok Response.plain "ok"
  told : ∀ (segment : String) (headers : List (String × String)) (body : Utf8.Bytes),
    Spells segment key.name →
      ((s.answer host r).2.1.answer (s.answer host r).2.2
        (valueRequest key.kind segment headers body)).1 =
        .ok Response.plain (v.onto (s.board host key)).canonical
  others : ∀ (other : Key) (segment : String) (headers : List (String × String))
    (body : Utf8.Bytes), other ≠ key → Spells segment other.name →
      ((s.answer host r).2.1.answer (s.answer host r).2.2
        (valueRequest other.kind segment headers body)).1 =
        (s.answer host (valueRequest other.kind segment headers body)).1

section

variable {s : Server} {host : Host}

/-- Every server in asynchronous mode serves, whatever has happened to it. -/
theorem Reached.serves (h : s.Reached host) (hasync : s.store.mode = .asynchronous) :
    s.Serves host := by
  rcases h.keeps.memory with ⟨c, hholds, -⟩
  exact ⟨c, hasync, hholds⟩

/-- A client without anyone to refuse it is served. -/
theorem refusal?_of_open (hopen : s.subnet = none) (r : Request) : s.refusal? r = none := by
  rw [refusal?, hopen]

section Updates

variable (hopen : s.subnet = none) {kind : Kind} {name raw : String} {v : Value}
  (hname : name ≠ "") (hparse : Value.parse kind raw = .ok v) {segment number : String}
  (hsegment : Percent.Writes segment name) (hnumber : Percent.Writes number raw)
include hopen hparse hsegment hnumber

/-- A path with a name and a number is answered as an update of that name. -/
theorem answer_updateRequest (headers : List (String × String)) (body : Utf8.Bytes) :
    s.answer host (updateRequest kind segment number headers body) =
      s.update host (.ok [.ofValue name v]) fun _ => .ok Response.plain "ok" := by
  have hraw := Value.ne_empty_of_parse hparse
  have htarget : Target.ofPath? (updateRequest kind segment number headers body).path =
      some (.updatePath kind.name segment number) := by
    rw [path_updateRequest hsegment hnumber]
    exact ofPath?_update hsegment hnumber hraw kind
  have hparameter {t u : String} (key : String) (h : Percent.Writes t u) :
      Http.parameter key t = .ok u := by
    rw [Http.parameter, h.decode]
  rw [answer_post htarget rfl rfl (refusal?_of_open hopen _)]
  simp only [serve, parameter_kind, hparameter "name" hsegment, hparameter "value" hnumber, bind,
    Except.bind, pure, Except.pure, Message.decodePath_name, hparse, Except.map]

include hname

/-- An update by path is accepted, and the board takes the value under the name. -/
theorem leaves_updateRequest (h : s.Serves host) (headers : List (String × String))
    (body : Utf8.Bytes) :
    let r := updateRequest kind segment number headers body
    (s.answer host r).1 = .ok Response.plain "ok" ∧
      s.Leaves (s.answer host r).2
        ((s.board host).set ⟨kind, name⟩ (v.onto (s.board host ⟨kind, name⟩))) := by
  intro r
  rcases Value.isFinite_of_parse hparse with ⟨hfinite, rfl⟩
  have hmessage := s.service.signer.fromMessage_ofValue hname hfinite
  have hanswer : s.answer host r = _ :=
    answer_updateRequest hopen hparse hsegment hnumber headers body
  have hresponse : (s.answer host r).1 = .ok Response.plain "ok" := by
    rcases h with ⟨c, hserves⟩
    have hmetrics : s.service.signer.fromMessages [.ofValue name v] = .ok [⟨name, v⟩] := by
      rw [Signer.fromMessages, List.mapM_cons, hmessage]
      rfl
    rcases Service.update_of_ok hserves hmetrics with ⟨heap, memory, -, hupdate⟩
    rw [hanswer, update]
    simp only [hupdate]
    rfl
  refine ⟨hresponse, ?_⟩
  have haccounts : s.Accounts host (s.answer host r) [.ofValue name v] := by
    rw [hanswer]
    exact accounts_update h (.ok [.ofValue name v]) fun _ _ => rfl
  have hstatus : (s.answer host r).1.status = 200 := by
    rw [hresponse]
    rfl
  have hboard : (s.board host).takeAll [.ofValue name v] =
      (s.board host).set ⟨v.kind, name⟩ (v.onto (s.board host ⟨v.kind, name⟩)) :=
    Signer.take_of_fromMessage hmessage (s.board host)
  rw [Accounts, if_pos hstatus, hboard] at haccounts
  exact haccounts

end Updates

/-! ## Questions in a path -/

/-- The answer to a question only depends on what is shown under its key. -/
theorem answer_valueRequest_congr {s' : Server} {host' : Host} (h : s.Serves host)
    (h' : s'.Serves host') (hopen : s.subnet = none) (hopen' : s'.subnet = none) {key : Key}
    (hboard : s'.board host' key = s.board host key) {segment : String}
    (hsegment : Spells segment key.name) (headers : List (String × String)) (body : Utf8.Bytes) :
    (s'.answer host' (valueRequest key.kind segment headers body)).1 =
      (s.answer host (valueRequest key.kind segment headers body)).1 := by
  rcases key with ⟨kind, name⟩
  by_cases hname : name = ""
  · -- Without a name the path leads nowhere.
    subst hname
    obtain rfl : segment = "" := hsegment.eq_empty
    have htarget : Target.ofPath? (valueRequest kind "" headers body).path = none := by
      rw [path_valueRequest hsegment.writes kind headers body]
      cases kind <;> decide
    unfold answer
    simp only [htarget, refusal?_of_open hopen, refusal?_of_open hopen']
  · rw [answer_valueRequest h' hopen' hsegment.writes hname kind headers body,
      answer_valueRequest h hopen hsegment.writes hname kind headers body, hboard]

/-! ## Every name -/

/-- Any name that is not empty can be sent in a path with any text that is read as a value,
if there is no subnet: to every server that serves, and so to every server in asynchronous
mode, whatever has happened to it. -/
theorem names_travel {kind : Kind} {name raw : String} {v : Value} (hname : name ≠ "")
    (hparse : Value.parse kind raw = .ok v) {segment number : String}
    (hsegment : Spells segment name) (hnumber : Spells number raw)
    (headers : List (String × String)) (body : Utf8.Bytes) :
    (∀ (s : Server) (host : Host), s.Serves host → s.subnet = none →
        s.Takes host (updateRequest kind segment number headers body) ⟨kind, name⟩ v) ∧
      ∀ (s : Server) (host : Host), s.Reached host → s.store.mode = .asynchronous →
        s.subnet = none →
          s.Takes host (updateRequest kind segment number headers body) ⟨kind, name⟩ v := by
  have htakes (s : Server) (host : Host) (h : s.Serves host) (hopen : s.subnet = none) :
      s.Takes host (updateRequest kind segment number headers body) ⟨kind, name⟩ v := by
    rcases leaves_updateRequest hopen hname hparse hsegment.writes hnumber.writes h headers body
      with ⟨haccepted, hleaves⟩
    have hnext := hleaves.subnet.trans hopen
    refine ⟨haccepted, fun segment' headers' body' hsegment' => ?_,
      fun other segment' headers' body' hother hsegment' => ?_⟩
    · have htold := answer_valueRequest hleaves.serves hnext hsegment'.writes hname kind headers'
        body'
      rw [hleaves.board, Board.set, if_pos rfl] at htold
      exact htold
    · refine answer_valueRequest_congr h hleaves.serves hopen hnext ?_ hsegment' headers' body'
      rw [hleaves.board, Board.set, if_neg hother]
  exact ⟨htakes, fun s host h hasync hopen => htakes s host (h.serves hasync) hopen⟩

/-- A server with a key takes a total twice, under a name of everything that ends a part
of an address, and so does the server of the same configuration that was started. -/
theorem names_travel_of_odd_name :
    let built := fresh { Config.Server.default with key := some "key" } .disabled none
    let host := Host.ofDisk (.withDirectory ["data"])
    let name := "a/b%2F?#+ \x00é😀"
    let r := updateRequest .counter (Percent.encode name) (Percent.encode " +5\n") [] []
    let next := (built.answer host r).2
    built.Takes host r ⟨.counter, name⟩ (.total (.clamp 5)) ∧
      next.1.Takes next.2 r ⟨.counter, name⟩ (.total (.clamp 5)) ∧
      (next.1.answer next.2 r).2.1.board (next.1.answer next.2 r).2.2 ⟨.counter, name⟩ =
        some (.total (.clamp 10)) ∧
      ∃ s log host', start built.config host = (.ok s, log, host') ∧
        s.Takes host' r ⟨.counter, name⟩ (.total (.clamp 5)) := by
  intro built host name r next
  have hserves : built.Serves host := serves_fresh (by decide) .disabled none host
  have hleaves := leaves_answer hserves r
  have hparse : Value.parse .counter " +5\n" = .ok (.total (.clamp 5)) := by decide
  have hstarted : ∃ s log host', start built.config host = (.ok s, log, host') ∧
      s.store.mode = .asynchronous ∧ s.subnet = none := ⟨_, _, _, rfl, rfl, rfl⟩
  rcases hstarted with ⟨s, log, host', hstart, hasync, hopen⟩
  have htravels := names_travel (by decide) hparse (Percent.spells_encode name)
    (Percent.spells_encode " +5\n") [] []
  have hagain := htravels.1 _ _ hleaves.serves hleaves.subnet
  refine ⟨?_, ?_, ?_, ?_⟩
  · exact htravels.1 built host hserves rfl
  · exact hagain
  · decide +kernel
  · exact ⟨s, log, host', hstart, htravels.2 s host' (reached_of_start hstart) hasync hopen⟩

end

end Server

end MetricRelay
