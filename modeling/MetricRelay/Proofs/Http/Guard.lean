import MetricRelay.Proofs.Http.Alike

/-!
# Refused clients

A server for a subnet asks of a request first of all who sends it.  A client that is
refused is told so, whatever it asks for, and leaves no trace: without the refused
requests of a run, the others are answered as before and the same store is left.  A
client that is admitted is answered as by a server for everyone.

Main definitions:

- `Subnet.Refuses`: a request comes from outside, or does not say from where.
- `Subnet.admitted`: the requests that are not refused.
- `Server.opened`: the same server for everyone.

Main results:

- `Server.answer_refused`: a refused request is told so and changes nothing.
- `Server.answer_opened` and `Server.run_opened`: admitted requests are answered as by
  a server for everyone.
- `Server.run_admitted`: a run without its refused requests.
- `Server.refused_without_influence`: all of this, at any point of any run.
-/

namespace MetricRelay

open Http (Request Response Target)

/-! ## Who is refused -/

/-- A character that is neither a tab nor a visible one of ASCII. -/
def IsHidden (c : Char) : Prop := c ≠ '\t' ∧ (c < ' ' ∨ '~' < c)

/-- Why a subnet refuses a request: the first header that should say from where it
comes is missing, has hidden characters, or is a text outside. -/
inductive Subnet.Refuses (subnet : Subnet) (r : Request) : Prop where
  | missing (h : r.header? "X-Real-IP" = none)
  | hidden (value : String) (h : r.header? "X-Real-IP" = some value)
      (hidden : ∃ c ∈ value.toList, IsHidden c)
  | outside (value : String) (h : r.header? "X-Real-IP" = some value)
      (outside : subnet.admits value = false)

/-- A header may hold all characters but the hidden ones. -/
theorem Server.isHeaderText_eq_false_iff (c : Char) :
    Server.isHeaderText c = false ↔ IsHidden c := by
  unfold Server.isHeaderText IsHidden
  by_cases htab : c = '\t'
  · simp [htab]
  · simp [htab, imp_iff_not_or]

/-- A value is the text of a header exactly if no hidden character is in it. -/
theorem Server.all_isHeaderText_iff (value : String) :
    value.toList.all Server.isHeaderText = true ↔ ¬∃ c ∈ value.toList, IsHidden c := by
  simp only [← Server.isHeaderText_eq_false_iff, List.all_eq_true, not_exists, not_and,
    Bool.not_eq_false]

namespace Subnet

variable {subnet : Subnet} {r : Request}

/-- A request is refused unless it says who asks, and that one is admitted. -/
theorem refuses_iff : subnet.Refuses r ↔ (Server.realIp? r).any subnet.admits = false := by
  unfold Server.realIp?
  constructor
  · intro hrefuses
    cases hrefuses with
    | missing h => rw [h, Option.filter_none, Option.any_none]
    | hidden value h hidden =>
      have htext : value.toList.all Server.isHeaderText ≠ true :=
        fun hall => (Server.all_isHeaderText_iff value).1 hall hidden
      rw [h, Option.filter_some, if_neg htext, Option.any_none]
    | outside value h outside =>
      rw [h, Option.filter_some]
      split
      · rw [Option.any_some, outside]
      · exact Option.any_none
  · intro hnot
    cases hheader : r.header? "X-Real-IP" with
    | none => exact .missing hheader
    | some value =>
      by_cases htext : value.toList.all Server.isHeaderText = true
      · rw [hheader, Option.filter_some, if_pos htext, Option.any_some] at hnot
        exact .outside value hheader hnot
      · rw [Server.all_isHeaderText_iff, not_not] at htext
        exact .hidden value hheader htext

instance (subnet : Subnet) (r : Request) : Decidable (subnet.Refuses r) :=
  decidable_of_iff' _ refuses_iff

/-- The requests that are not refused. -/
def admitted (subnet : Subnet) (rs : List Request) : List Request :=
  rs.filter fun r => ¬subnet.Refuses r

theorem admitted_cons_of_refuses (h : subnet.Refuses r) (rs : List Request) :
    subnet.admitted (r :: rs) = subnet.admitted rs :=
  List.filter_cons_of_neg (by simpa using h)

theorem admitted_cons_of_not (h : ¬subnet.Refuses r) (rs : List Request) :
    subnet.admitted (r :: rs) = r :: subnet.admitted rs :=
  List.filter_cons_of_pos (by simpa using h)

/-- No request that was admitted is refused. -/
theorem not_refuses_of_mem {rs : List Request} (h : r ∈ subnet.admitted rs) :
    ¬subnet.Refuses r := by
  simpa using (List.mem_filter.1 h).2

end Subnet

namespace Server

variable {s : Server} {subnet : Subnet} {r : Request}

/-- A request that the subnet refuses is answered so. -/
theorem refusal?_of_refuses (hsubnet : s.subnet = some subnet) (h : subnet.Refuses r) :
    ∃ why, s.refusal? r = some (.forbidden why) := by
  rw [Subnet.refuses_iff] at h
  unfold refusal?
  rw [hsubnet]
  cases hip : realIp? r with
  | none => exact ⟨_, rfl⟩
  | some ip =>
    rw [hip, Option.any_some] at h
    simp only [h, Bool.false_eq_true, if_false]
    exact ⟨_, rfl⟩

/-- No other is. -/
theorem refusal?_of_not_refuses (hsubnet : s.subnet = some subnet) (h : ¬subnet.Refuses r) :
    s.refusal? r = none := by
  rw [Subnet.refuses_iff, Bool.not_eq_false] at h
  unfold refusal?
  rw [hsubnet]
  cases hip : realIp? r with
  | none =>
    rw [hip] at h
    cases h
  | some ip =>
    rw [hip, Option.any_some] at h
    simp only [h, if_true]

/-! ## One request -/

/-- A refused request is told so, whatever it asks for, and changes nothing. -/
theorem answer_refused (hsubnet : s.subnet = some subnet) (h : subnet.Refuses r) (host : Host) :
    (s.answer host r).1.status = 403 ∧ (s.answer host r).2 = (s, host) := by
  rcases refusal?_of_refuses hsubnet h with ⟨why, hrefusal⟩
  unfold answer
  simp only [hrefusal]
  cases Target.ofPath? r.path with
  | none => exact ⟨rfl, rfl⟩
  | some target =>
    simp only
    split
    · split <;> exact ⟨rfl, rfl⟩
    · exact ⟨rfl, rfl⟩

/-- A server as it would be if it served everyone. -/
def opened (s : Server) : Server := { s with subnet := none }

/-- What is left where a server for everyone did the same. -/
def openedNext (next : Response × Server × Host) : Response × Server × Host :=
  (next.1, next.2.1.opened, next.2.2)

/-- Without the subnet updates are taken as with it. -/
theorem update_opened (s : Server) (host : Host) (messages : Outcome (List Message))
    (ok : List Message → Response) :
    s.opened.update host messages ok = openedNext (s.update host messages ok) := by
  cases messages <;> rfl

/-- Whom a server serves does not matter for what it serves. -/
theorem serve_opened (s : Server) (host : Host) (target : Target) (body : Utf8.Bytes) :
    s.opened.serve host target body = openedNext (s.serve host target body) := by
  cases target with
  | report => rfl
  | ping => rfl
  | updatePath type name value =>
    simp only [serve]
    cases (do
      let type ← Http.parameter "mtype" type
      let name ← Http.parameter "name" name
      let value ← Http.parameter "value" value
      return (type, name, value) : Except String (String × String × String)) with
    | error bad => rfl
    | ok _ => exact update_opened s host _ _
  | valuePath type name =>
    simp only [serve]
    cases (do
      let type ← Http.parameter "mtype" type
      let name ← Http.parameter "name" name
      return (type, name) : Except String (String × String)) with
    | error bad => rfl
    | ok _ => rfl
  | updateOne =>
    simp only [serve]
    split
    · rfl
    · exact update_opened s host _ _
  | updateBatch =>
    simp only [serve]
    split
    · rfl
    · exact update_opened s host _ _
  | valueOne =>
    simp only [serve]
    split
    · rfl
    · cases Message.decodeOne body <;> rfl

/-- Who is admitted is answered as by a server for everyone. -/
theorem answer_opened (hsubnet : s.subnet = some subnet) (h : ¬subnet.Refuses r) (host : Host) :
    s.opened.answer host r = openedNext (s.answer host r) := by
  have hrefusal := refusal?_of_not_refuses hsubnet h
  have hopened : s.opened.refusal? r = none := rfl
  unfold answer
  simp only [hrefusal, hopened]
  cases Target.ofPath? r.path with
  | none => rfl
  | some target =>
    simp only
    split
    · rw [serve_opened]
      rfl
    · rfl

/-- No request changes the subnet. -/
theorem subnet_answer (s : Server) (host : Host) (r : Request) :
    (s.answer host r).2.1.subnet = s.subnet :=
  answer_keeps (P := fun s' _ => s'.subnet = s.subnet) rfl (fun _ => rfl) r

/-! ## Runs -/

theorem subnet_run (s : Server) (host : Host) (rs : List Request) :
    (s.run host rs).2.1.subnet = s.subnet :=
  run_keeps (P := fun s' _ => s'.subnet = s.subnet) rfl (fun _ _ h _ => h) rs

/-- Requests that are admitted are answered as by a server for everyone. -/
theorem run_opened (hsubnet : s.subnet = some subnet) {host : Host} {rs : List Request}
    (h : ∀ r ∈ rs, ¬subnet.Refuses r) :
    s.opened.run host rs =
      ((s.run host rs).1, (s.run host rs).2.1.opened, (s.run host rs).2.2) := by
  induction rs generalizing s host with
  | nil => rfl
  | cons r rs ih =>
    have hone := answer_opened hsubnet (h r List.mem_cons_self) host
    have hsubnet' : (s.answer host r).2.1.subnet = some subnet :=
      (subnet_answer s host r).trans hsubnet
    have hrest := @ih _ hsubnet' (s.answer host r).2.2 fun x hx => h x (List.mem_cons_of_mem _ hx)
    rw [run_cons, run_cons, hone]
    simp only [openedNext, hrest]

/-- Without the refused requests of a run, the others are answered as before and the
same is left. -/
theorem run_admitted (hsubnet : s.subnet = some subnet) (host : Host) (rs : List Request) :
    (rs.zip (s.run host rs).1).filter (fun x => ¬subnet.Refuses x.1) =
        (subnet.admitted rs).zip (s.run host (subnet.admitted rs)).1 ∧
      (s.run host rs).2 = (s.run host (subnet.admitted rs)).2 := by
  induction rs generalizing s host with
  | nil => exact ⟨rfl, rfl⟩
  | cons r rs ih =>
    by_cases hrefuses : subnet.Refuses r
    -- A refused request is left out on both sides, and the rest of the run starts where it did.
    · have hnext := (answer_refused hsubnet hrefuses host).2
      rw [run_cons, hnext, Subnet.admitted_cons_of_refuses hrefuses, List.zip_cons_cons,
        List.filter_cons_of_neg (by simpa using hrefuses)]
      exact ih hsubnet host
    · rcases ih ((subnet_answer s host r).trans hsubnet) (s.answer host r).2.2 with ⟨hzip, hleft⟩
      rw [Subnet.admitted_cons_of_not hrefuses, run_cons, run_cons, List.zip_cons_cons,
        List.zip_cons_cons, List.filter_cons_of_pos (by simpa using hrefuses), hzip, hleft]
      exact ⟨rfl, rfl⟩

/-- At the end of a run, and so at any point of it, whoever is refused is told so and
changes nothing, and whoever is admitted is answered as by a server for everyone with
the same store.  The run itself went as without its refused requests, and they as with
a server for everyone. -/
structure RefusesWithoutInfluence (s : Server) (subnet : Subnet) (host : Host)
    (rs : List Request) : Prop where
  answered : (s.run host rs).1.length = rs.length
  refused : ∀ r, subnet.Refuses r →
    ((s.run host rs).2.1.answer (s.run host rs).2.2 r).1.status = 403 ∧
      ((s.run host rs).2.1.answer (s.run host rs).2.2 r).2 = (s.run host rs).2
  admitted : ∀ r, ¬subnet.Refuses r →
    (s.run host rs).2.1.opened.answer (s.run host rs).2.2 r =
      openedNext ((s.run host rs).2.1.answer (s.run host rs).2.2 r)
  answers : (rs.zip (s.run host rs).1).filter (fun x => ¬subnet.Refuses x.1) =
    (subnet.admitted rs).zip (s.run host (subnet.admitted rs)).1
  left : (s.run host rs).2 = (s.run host (subnet.admitted rs)).2
  opened : s.opened.run host (subnet.admitted rs) =
    ((s.run host (subnet.admitted rs)).1, (s.run host rs).2.1.opened, (s.run host rs).2.2)

/-- Refused clients have no influence on a server for a subnet, in whatever state it
is and whatever is requested. -/
theorem refused_without_influence (hsubnet : s.subnet = some subnet) (host : Host)
    (rs : List Request) : s.RefusesWithoutInfluence subnet host rs := by
  have hnext : (s.run host rs).2.1.subnet = some subnet := (subnet_run s host rs).trans hsubnet
  rcases run_admitted hsubnet host rs with ⟨hanswers, hleft⟩
  refine ⟨length_run s host rs, fun r h => answer_refused hnext h _,
    fun r h => answer_opened hnext h _, hanswers, hleft, ?_⟩
  rw [hleft]
  exact run_opened hsubnet fun r hr => Subnet.not_refuses_of_mem hr

/-- A server for the addresses that start with ten, and clients that say nothing, that are
outside, that are inside or that only name themselves so after another name. -/
theorem refused_without_influence_of_ten :
    let subnet := Subnet.v4 (.ofAddress 0x0A000000 8 (by decide))
    let s := fresh { Config.Server.default with trustedSubnet := some "10.0.0.0/8" } .disabled
      (some subnet)
    let update (headers : List (String × String)) : Request :=
      ⟨"POST", "/update/counter/polls/1", headers, []⟩
    let unnamed := update []
    let outside := update [("X-Real-IP", "192.168.0.1")]
    let inside := update [("x-real-ip", " 10.1.2.3")]
    let second := update [("x-real-ip", "bogus"), ("X-Real-IP", "10.1.2.3")]
    let host := Host.ofDisk (Disk.withDirectory ["data"])
    (s.subnet = some subnet ∧ Subnet.parse "10.0.0.0/8" = .ok subnet) ∧
      subnet.admitted [unnamed, inside, outside, inside, second] = [inside, inside] ∧
        s.RefusesWithoutInfluence subnet host [unnamed, inside, outside, inside, second] := by
  intro subnet s update unnamed outside inside second host
  refine ⟨⟨rfl, by decide +kernel⟩, by decide +kernel, ?_⟩
  exact refused_without_influence rfl host _

end Server

end MetricRelay
