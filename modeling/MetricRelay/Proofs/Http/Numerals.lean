import MetricRelay.Proofs.Http.Batches
import MetricRelay.Proofs.Message.Numerals

/-!
# Updates by path and by message

An update may be sent in the path of a request, with its number as free text, or in
a body, with its number as a number of a message.  Whatever the server and its backup
are, both do the same, because both numbers are read to the same value or refused for
the same reason.

Main definitions:

- `Http.Request.TwoWays`: two requests with one update, by path and by message.
- `Server.SameEffect`: two requests are answered with one status and leave the same
  behind.

Main results:

- `Server.twoWays_updateRequest`: every update can be sent in both ways.
- `Server.reads_numbers_alike`: a number is read to the same value in both ways, and
  has the same effect.
-/

namespace MetricRelay

open Http (Request Response Target)

/-! ## Two ways to send an update -/

/-- Two requests that differ in the way in which they bring an update: in a path,
from whose parts its kind, its name and its number are read as texts, or in a body. -/
structure Http.Request.TwoWays (byPath byBody : Request) (kind name raw : String) : Prop where
  path_target : ∃ type segment number,
    Target.ofPath? byPath.path = some (.updatePath type segment number) ∧
      Http.parameter "mtype" type = .ok kind ∧ Http.parameter "name" segment = .ok name ∧
      Http.parameter "value" number = .ok raw
  path_method : byPath.method = "POST"
  body_target : Target.ofPath? byBody.path = some .updateOne
  body_method : byBody.method = "POST"
  headers : byBody.headers = byPath.headers

namespace Server

/-- Two requests are answered with one status and leave the same behind. -/
structure SameEffect (s : Server) (host : Host) (one other : Request) : Prop where
  status : (s.answer host other).1.status = (s.answer host one).1.status
  left : (s.answer host other).2 = (s.answer host one).2

/-- The request for an update by path, with name and number written as segments. -/
def updateRequest (kind : Kind) (segment number : String) (headers : List (String × String))
    (body : Utf8.Bytes) : Request :=
  ⟨"POST", "/update/" ++ kind.name ++ "/" ++ segment ++ "/" ++ number, headers, body⟩

section Segments

variable {segment name number raw : String} (hsegment : Percent.Writes segment name)
  (hnumber : Percent.Writes number raw)
include hsegment hnumber

/-- The path of the request for an update names the kind, the name and the number. -/
theorem path_updateRequest (kind : Kind) (headers : List (String × String)) (body : Utf8.Bytes) :
    (updateRequest kind segment number headers body).path =
      "/update/" ++ kind.name ++ "/" ++ segment ++ "/" ++ number := by
  have hstart : ("/update/" ++ kind.name ++ "/").toList.all (fun c => c ≠ '?' && c ≠ '#') = true := by
    cases kind <;> rfl
  have hwithin {t u : String} (h : Percent.Writes t u) :
      ∀ c ∈ t.toList, (c ≠ '?' && c ≠ '#') = true := by
    intro c hc
    simpa using (h.within c hc).2
  apply Request.path_eq_address
  · cases kind <;> simp [updateRequest, Kind.name]
  · intro c hc
    rw [updateRequest, String.toList_append, String.toList_append, String.toList_append,
      List.mem_append, List.mem_append, List.mem_append] at hc
    rcases hc with ((hc | hc) | hc) | hc
    · exact List.all_eq_true.1 hstart c hc
    · exact hwithin hsegment c hc
    · have hslash : c = '/' := by simpa using hc
      rw [hslash]
      rfl
    · exact hwithin hnumber c hc

/-- The path of such a request leads to an update. -/
theorem ofPath?_update (hraw : raw ≠ "") (kind : Kind) :
    Target.ofPath? ("/update/" ++ kind.name ++ "/" ++ segment ++ "/" ++ number) =
      some (.updatePath kind.name segment number) := by
  have hne : number ≠ "" := by
    rintro rfl
    have hempty : Percent.decode? (Utf8.encode "") = some "" := (Percent.writes_encode "").decode
    rw [hnumber.decode] at hempty
    exact hraw (Option.some.inj hempty)
  have hparts : Text.splitAt '/'
      ("/update/" ++ kind.name ++ "/" ++ segment ++ "/" ++ number).toList =
      [[], "update".toList, kind.name.toList, segment.toList, number.toList] := by
    have hkind : '/' ∉ kind.name.toList := by cases kind <;> decide
    have htext : ("/update/" ++ kind.name ++ "/" ++ segment ++ "/" ++ number).toList =
        [] ++ '/' :: ("update".toList ++ '/' :: (kind.name.toList ++
          '/' :: (segment.toList ++ '/' :: number.toList))) := by
      simp
    rw [htext, Text.splitAt_append_cons List.not_mem_nil, Text.splitAt_append_cons (by decide),
      Text.splitAt_append_cons hkind,
      Text.splitAt_append_cons fun hmem => (hsegment.within '/' hmem).1 rfl,
      Text.splitAt_of_not_mem fun hmem => (hnumber.within '/' hmem).1 rfl]
  unfold Target.ofPath?
  rw [hparts]
  simp [hne]

/-- Every update can be sent in both ways. -/
theorem twoWays_updateRequest (hraw : raw ≠ "") (kind : Kind) (headers : List (String × String))
    (empty body : Utf8.Bytes) :
    Request.TwoWays (updateRequest kind segment number headers empty)
      ⟨"POST", "/update", headers, body⟩ kind.name name raw := by
  have hparameter {t u : String} (key : String) (h : Percent.Writes t u) :
      Http.parameter key t = .ok u := by
    rw [Http.parameter, h.decode]
  have htarget : Target.ofPath? (⟨"POST", "/update", [], []⟩ : Request).path = some .updateOne := by
    decide
  refine ⟨⟨kind.name, segment, number, ?_, parameter_kind "mtype" kind,
    hparameter "name" hsegment, hparameter "value" hnumber⟩, rfl, htarget, rfl, rfl⟩
  rw [path_updateRequest hsegment hnumber]
  exact ofPath?_update hsegment hnumber hraw kind

end Segments

/-! ## One effect -/

section

variable {s : Server} {host : Host} {name : String} {v : Option Value}

/-- Two outcomes that say the same are taken alike, or refused alike. -/
theorem update_alike {one other : Outcome Message} (hone : Message.Says name v one)
    (hother : Message.Says name v other) :
    let byPath := s.update host (one.map fun m => [m]) fun _ => .ok Response.plain "ok"
    let byBody := s.update host (other.map fun m => [m]) onlyMessage
    byBody.1.status = byPath.1.status ∧ byBody.2 = byPath.2 := by
  cases hone with
  | @refusal e he =>
    cases hother with
    | @refusal e' he' =>
      refine ⟨?_, rfl⟩
      show e'.fault.status = e.fault.status
      rw [he, he']
  | message v =>
    rcases hother with _ | _
    rcases hupdate : s.service.update host [Message.ofValue name v] with ⟨result, service, host'⟩
    cases result with
    | error e => simp only [Except.map, update, hupdate, Response.ofOutcome, and_self]
    | ok answers =>
      rcases List.length_eq_one_iff.1 (Service.length_update hupdate) with ⟨answer, rfl⟩
      simp only [Except.map, update, hupdate, Response.ofOutcome, onlyMessage_singleton,
        Response.ok, and_self]

/-- What is read alike has the same effect. -/
theorem sameEffect_of_read {kind raw : String} {byPath byBody : Request}
    (h : Request.TwoWays byPath byBody kind name raw) (hsmall : byBody.body.length ≤ greatestBody)
    (hpath : Message.Says name v (Message.decodePath kind name raw))
    (hbody : Message.Says name v (Message.decodeOne byBody.body)) :
    s.SameEffect host byPath byBody := by
  rcases h.path_target with ⟨type, segment, number, htarget, htype, hsegment, hnumber⟩
  have hone := @answer_posted s host _ _ htarget rfl h.path_method
  have hother := @answer_posted s host _ _ h.body_target rfl h.body_method
  rw [s.refusal?_congr h.headers] at hother
  cases hrefusal : s.refusal? byPath with
  | some e =>
    rw [hrefusal] at hone hother
    exact ⟨by rw [hone, hother], by rw [hone, hother]⟩
  | none =>
    simp only [hrefusal, serve, htype, hsegment, hnumber, bind, Except.bind, pure,
      Except.pure] at hone
    simp only [hrefusal, serve, if_neg (Nat.not_lt.2 hsmall)] at hother
    rcases @update_alike s host name v _ _ hpath hbody with ⟨hstatus, hleft⟩
    exact ⟨by rw [hone, hother, hstatus], by rw [hone, hother, hleft]⟩

end

/-- A number is read to the same value in a path and in a message, or refused in
both, and so the two requests with it have the same effect.  It is refused exactly if
a total does not fit or a reading is too large for a double. -/
theorem reads_numbers_alike {x : Literal} {kind : Kind} {negative : Bool} {name : String}
    {body : Utf8.Bytes} (hx : x.Valid) (hupdates : x.Updates kind negative)
    (hbody : Message.IsUpdate body kind name (x.signed negative)) :
    let raw := String.ofList (x.signed negative)
    Message.Says name (x.value? kind negative) (Message.decodePath kind.name name raw) ∧
      Message.Says name (x.value? kind negative) (Message.decodeOne body) ∧
      ∀ (s : Server) (host : Host) (byPath byBody : Request),
        Request.TwoWays byPath byBody kind.name name raw → byBody.body = body →
          body.length ≤ greatestBody → s.SameEffect host byPath byBody := by
  intro raw
  have hsaysPath := Message.says_decodePath hx hupdates name
  have hsaysBody := Message.says_decodeOne hx hupdates hbody
  refine ⟨hsaysPath, hsaysBody, fun s host byPath byBody htwo heq hsmall => ?_⟩
  subst heq
  exact sameEffect_of_read htwo hsmall hsaysPath hsaysBody

/-- The least negative reading, by path and in an object whose first member it is. -/
theorem reads_numbers_alike_of_least :
    let x : Literal := ⟨['5'], none, 'e', some ['-', '3', '2', '4']⟩
    let raw := String.ofList (x.signed true)
    let body := Utf8.encodeChars (Json.object [Json.member "value" (x.signed true),
      Json.member "type" (Json.quote "gauge"), Json.member "id" (Json.quote "load/1")])
    x.value? .gauge true = some (.reading (.finite true ⟨1, by decide⟩)) ∧
      Message.Says "load/1" (x.value? .gauge true)
        (Message.decodePath Kind.gauge.name "load/1" raw) ∧
      Message.Says "load/1" (x.value? .gauge true) (Message.decodeOne body) ∧
      ∀ (s : Server) (host : Host),
        s.SameEffect host
          (updateRequest .gauge (Percent.encode "load/1") (Percent.encode raw) [] [])
          ⟨"POST", "/update", [], body⟩ := by
  intro x raw body
  have hx : x.Valid := by
    refine ⟨by decide, by decide, Or.inl (by decide), fun f hf => ?_, Or.inl rfl, fun e he => ?_⟩
    · cases hf
    · cases he
      exact ⟨['3', '2', '4'], ⟨by decide, by decide⟩, Or.inr (Or.inl rfl)⟩
  have hupdates : x.Updates .gauge true := by decide
  have hbody : Message.IsUpdate body .gauge "load/1" (x.signed true) := by
    refine Message.isUpdate_object hx ?_
    exact (List.reverse_perm _).symm
  have htwo := twoWays_updateRequest (Percent.writes_encode "load/1") (Percent.writes_encode raw)
    (by decide) .gauge [] [] body
  rcases reads_numbers_alike hx hupdates hbody with ⟨hpath, hmessage, heffect⟩
  refine ⟨by decide +kernel, hpath, hmessage, fun s host => ?_⟩
  exact heffect s host _ _ htwo rfl (by decide +kernel)

/-- A one with `0x10000` zeros and an exponent that takes away ten times as many: as
free text it is one, and as a number of a message it is zero. -/
theorem not_reads_numbers_alike_with_zeros :
    let x := Literal.shifted 0x10000
    let raw := String.ofList (x.signed false)
    let body := Utf8.encodeChars (Json.object [Json.member "id" (Json.quote "g"),
      Json.member "type" (Json.quote "gauge"), Json.member "value" (x.signed false)])
    x.Valid ∧ Message.IsUpdate body .gauge "g" (x.signed false) ∧
      ∀ v, ¬ (Message.Says "g" v (Message.decodePath Kind.gauge.name "g" raw) ∧
        Message.Says "g" v (Message.decodeOne body)) := by
  intro x raw body
  have hx : x.Valid := Literal.valid_shifted _
  have hbody : Message.IsUpdate body .gauge "g" (x.signed false) :=
    Message.isUpdate_object hx (List.Perm.refl _)
  refine ⟨hx, hbody, fun v h => ?_⟩
  exact Message.not_says_shifted rfl hbody h.1 h.2

end Server

end MetricRelay
