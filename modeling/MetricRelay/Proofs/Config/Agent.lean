import Mathlib.Data.List.TakeWhile
import MetricRelay.Agent.Run

/-!
# Accepted configurations of the agent

A configuration passes its checks exactly when its values are in their ranges.  An agent
can always be made of one that does.

Main definition:

- `Config.Agent.IsAccepted`: what the checks demand.

Main results:

- `Config.check_of_read`: what is read has passed its checks.
- `Config.Agent.check_eq_ok_iff`: the checks as a whole.
- `Config.Agent.IsAccepted.exists_pusher`: metrics can be pushed.
-/

namespace MetricRelay

namespace Text

/-- A text with something in it is not trimmed away. -/
theorem trim_ne_nil {s : List Char} (h : s.all isBlank = false) : trim s ≠ [] := by
  rw [List.all_eq_false] at h
  rcases h with ⟨c, hc, hblank⟩
  intro htrim
  unfold trim trimEnd at htrim
  rw [List.reverse_eq_nil_iff, List.dropWhile_eq_nil_iff] at htrim
  -- What is left in front starts with a character that is not blank.
  cases hrest : s.dropWhile isBlank with
  | nil =>
    rw [List.dropWhile_eq_nil_iff] at hrest
    exact hblank (hrest c hc)
  | cons d rest =>
    have hfirst := List.head?_dropWhile_not isBlank s
    rw [hrest] at hfirst htrim
    have hd := htrim d (by simp)
    rw [List.head?_cons] at hfirst
    simp only [hd] at hfirst
    cases hfirst

end Text

namespace Config

/-- Checks one after the other are passed if each of them is. -/
theorem bind_eq_ok_iff {first : Outcome Unit} {later : Unit → Outcome Unit} :
    first >>= later = .ok () ↔ first = .ok () ∧ later () = .ok () := by
  cases first with
  | error e => simp [bind, Except.bind]
  | ok u => simp [bind, Except.bind]

/-- There is only one version. -/
theorem checkVersion_eq_ok_iff {version : Nat} : checkVersion version = .ok () ↔ version = 1 := by
  unfold checkVersion
  split
  · rename_i h
    simpa using h
  · rename_i h
    simpa using h

/-- A demand is met exactly if it holds. -/
theorem require_eq_ok_iff {holds : Bool} {reason : String} :
    require holds reason = .ok () ↔ holds = true := by
  cases holds <;> simp [require]

/-- A configuration that is read has passed its checks. -/
theorem check_of_read {α : Type} {ofDocument : Yaml.Document → Yaml.Read α}
    {check : α → Outcome Unit} {text : String} {c : α} (h : read ofDocument check text = .ok c) :
    check c = .ok () := by
  unfold read at h
  cases hread : Yaml.Document.parse text >>= ofDocument with
  | error fault =>
    rw [hread] at h
    cases h
  | ok config =>
    simp only [hread] at h
    cases hcheck : check config with
    | error e =>
      rw [hcheck] at h
      cases h
    | ok u =>
      rw [hcheck] at h
      cases h
      exact hcheck

namespace Agent

/-- The values that a configuration may have. -/
structure IsAccepted (c : Config.Agent) : Prop where
  version : c.version = 1
  address : Text.isBlankText c.serverAddress = false
  pollInterval : 1 ≤ c.pollInterval ∧ c.pollInterval ≤ 3600
  reportInterval : 1 ≤ c.reportInterval ∧ c.reportInterval ≤ 3600
  batchSize : 1 ≤ c.batchSize ∧ c.batchSize ≤ 10000
  pushTimeout : 100 ≤ c.pushTimeout ∧ c.pushTimeout ≤ 600000
  realIp : ∀ ip, c.realIp = some ip → (Ip.parse? ip).isSome = true

/-- Ranges are closed. -/
theorem requireRange_eq_ok_iff {name : String} {least greatest n : Nat} :
    requireRange name least greatest n = .ok () ↔ least ≤ n ∧ n ≤ greatest := by
  unfold requireRange require
  split
  · rename_i h
    simpa using h
  · rename_i h
    simpa using h

/-- The checks as a whole. -/
theorem check_eq_ok_iff {c : Config.Agent} : c.check = .ok () ↔ c.IsAccepted := by
  unfold check
  cases haddress : Text.isBlankText c.serverAddress with
  | true =>
    simp only [bind_eq_ok_iff, if_true]
    constructor
    · rintro ⟨-, hthrow, -⟩
      cases hthrow
    · intro h
      cases haddress.symm.trans h.address
  | false =>
    simp only [bind_eq_ok_iff, checkVersion_eq_ok_iff, requireRange_eq_ok_iff,
      Bool.false_eq_true, if_false]
    constructor
    · rintro ⟨hversion, hpoll, hreport, hsize, htimeout, hrealIp⟩
      refine ⟨hversion, haddress, hpoll, hreport, hsize, htimeout, fun ip hip => ?_⟩
      rw [hip] at hrealIp
      exact require_eq_ok_iff.1 hrealIp
    · intro h
      refine ⟨h.version, h.pollInterval, h.reportInterval, h.batchSize, h.pushTimeout, ?_⟩
      cases hip : c.realIp with
      | none => rfl
      | some ip => exact require_eq_ok_iff.2 (h.realIp ip hip)

/-- Metrics can be pushed, as the configuration says. -/
theorem IsAccepted.exists_pusher {c : Config.Agent} (h : c.IsAccepted) :
    ∃ address, c.pusher = .ok ⟨address, .ofText? c.key, c.batchSize, c.realIp⟩ := by
  have hsize : max c.batchSize 1 = c.batchSize := Nat.max_eq_left h.batchSize.1
  have htrim := Text.trim_ne_nil h.address
  unfold pusher Agent.Pusher.make Agent.updatesAddress
  simp only
  rw [if_neg (by simpa using htrim), hsize]
  exact ⟨_, rfl⟩

end Agent

end Config

end MetricRelay
