import Mathlib.Data.List.DropRight
import Mathlib.Data.List.Infix
import MetricRelay.Agent.Address
import MetricRelay.Proofs.Config.Agent
import MetricRelay.Proofs.Metric.Texts

/-!
# Where lists of updates are sent

The place for lists of updates is built from whatever text an agent is given.  Blanks
around the text make no difference, and the place is always one name below the text
without its last slashes.  The scheme is looked for before those slashes are dropped:
where they belong to the mark of a scheme, the mark goes with them, and then there is
no host left to send to.

Main definitions:

- `schemeMark` and `core`: the mark behind a scheme, and a text without its last slashes.
- `HasHost`: a place below something that stands behind the mark of a scheme.
- `KeepsMark`: no mark of a scheme is lost with the last slashes.

Main results:

- `hasScheme_append_slashes`: when slashes at the end make a scheme of a text.
- `toList_of_updatesAddress`: the place as a whole.
- `updatesAddress_usable`: which texts have a place with a host.
-/

namespace MetricRelay

/-! ## Blanks around a text -/

namespace Text

/-- Blanks at the end do not matter. -/
theorem trimEnd_append_blanks (s : List Char) {after : List Char} (h : after.all isBlank = true) :
    trimEnd (s ++ after) = trimEnd s := by
  have hreverse : ∀ c ∈ after.reverse, isBlank c = true := fun c hc =>
    List.all_eq_true.1 h c (List.mem_reverse.1 hc)
  rw [trimEnd, trimEnd, List.reverse_append, List.dropWhile_append_of_pos hreverse]

/-- Blanks that are put around a text are trimmed away with those at its ends. -/
theorem Padded.trim_eq_trim {raw : String} {s : List Char} (h : Padded raw s) :
    trim raw.toList = trim s := by
  rcases h with ⟨before, after, hbefore, hafter, hraw⟩
  rw [hraw, trim, trim, List.dropWhile_append_of_pos (List.all_eq_true.1 hbefore)]
  cases hs : s.dropWhile isBlank with
  | nil =>
    have hall : after.dropWhile isBlank = [] :=
      List.dropWhile_eq_nil_iff.2 (List.all_eq_true.1 hafter)
    rw [List.dropWhile_append, hs, List.isEmpty_nil, if_pos rfl, hall]
  | cons c r =>
    rw [List.dropWhile_append, hs, List.isEmpty_cons, if_neg Bool.false_ne_true]
    exact trimEnd_append_blanks _ hafter

/-- What is left is what a text begins with. -/
theorem isPrefix_trimEnd (s : List Char) : trimEnd s <+: s := by
  rw [trimEnd, ← List.reverse_suffix, List.reverse_reverse]
  exact List.dropWhile_suffix _

/-- What is left without the blanks at both ends is part of the text. -/
theorem isInfix_trim (s : List Char) : trim s <:+: s :=
  (isPrefix_trimEnd _).isInfix.trans (List.dropWhile_suffix _).isInfix

/-- What is left of a text starts and ends with no blank. -/
theorem trim_trim (s : List Char) : trim (trim s) = trim s := by
  have hraw := (padded_trim (String.ofList s)).trim_eq_trim
  rw [String.toList_ofList] at hraw
  exact hraw.symm

/-- What is left of a text starts with no blank. -/
theorem isBlank_of_mem_head?_trim {s : List Char} : ∀ c ∈ (trim s).head?, isBlank c = false := by
  intro c hc
  cases hblank : isBlank c with
  | false => rfl
  | true =>
    rcases List.head?_eq_some_iff.1 hc with ⟨r, hr⟩
    have hdrop : trim (c :: r) = trim r := by rw [trim, List.dropWhile_cons_of_pos hblank, ← trim]
    have hshort := (isInfix_trim r).length_le
    rw [← hdrop, ← hr, trim_trim, hr, List.length_cons] at hshort
    omega

/-- What is left of a text ends with no blank. -/
theorem isBlank_of_mem_getLast?_trim {s : List Char} :
    ∀ c ∈ (trim s).getLast?, isBlank c = false := by
  intro c hc
  cases hblank : isBlank c with
  | false => rfl
  | true =>
    rcases List.getLast?_eq_some_iff.1 hc with ⟨r, hr⟩
    have hpadded : Padded (String.ofList (trim s)) r :=
      ⟨[], [c], rfl, by simpa using hblank, by rw [String.toList_ofList, hr, List.nil_append]⟩
    have hdrop := hpadded.trim_eq_trim
    have hshort := (isInfix_trim r).length_le
    rw [← hdrop, String.toList_ofList, trim_trim, hr, List.length_append] at hshort
    simp at hshort

/-- A text that has no blank at its ends is not trimmed. -/
theorem trim_eq_self_of_ends {s : List Char} (hfirst : ∀ c ∈ s.head?, isBlank c = false)
    (hlast : ∀ c ∈ s.getLast?, isBlank c = false) : trim s = s := by
  have hdrop {t : List Char} (ht : ∀ c ∈ t.head?, isBlank c = false) :
      t.dropWhile isBlank = t := by
    cases t with
    | nil => rfl
    | cons c r => rw [List.dropWhile_cons_of_neg (by simp [ht c rfl])]
  rw [trim, hdrop hfirst, trimEnd, hdrop, List.reverse_reverse]
  rwa [List.head?_reverse]

/-- Nothing is left of exactly the texts of blanks. -/
theorem trim_eq_nil_iff {s : List Char} : trim s = [] ↔ s.all isBlank = true := by
  constructor
  · intro h
    cases hall : s.all isBlank with
    | true => rfl
    | false => exact absurd h (trim_ne_nil hall)
  · intro h
    rw [trim, List.dropWhile_eq_nil_iff.2 (List.all_eq_true.1 h)]
    rfl

end Text

namespace Agent

open Text (Padded trim)

/-! ## Marks of schemes -/

/-- The mark behind a scheme. -/
def schemeMark : List Char := [':', '/', '/']

/-- A text without the slashes at its end. -/
def core (s : List Char) : List Char := s.rdropWhile (· = '/')

variable {s : List Char}

/-- A text has a scheme if the mark of one stands anywhere in it. -/
theorem hasScheme_iff : hasScheme s = true ↔ schemeMark <:+: s := by
  fun_induction hasScheme s with
  | case1 r => exact iff_of_true rfl ⟨[], r, rfl⟩
  | case2 c r hstart ih =>
    rw [ih, List.infix_cons_iff]
    refine (or_iff_right ?_).symm
    rintro ⟨t, ht⟩
    obtain ⟨hc, hr⟩ := List.cons.inj ht
    exact hstart t hc.symm hr.symm
  | case3 => exact iff_of_false Bool.false_ne_true (by decide)

/-- A text is what is left of it and the slashes at its end. -/
theorem exists_eq_core_append (s : List Char) : ∃ n, s = core s ++ List.replicate n '/' := by
  have hslashes : s.rtakeWhile (· = '/') = List.replicate (s.rtakeWhile (· = '/')).length '/' :=
    List.eq_replicate_of_mem fun c hc => by simpa using List.mem_rtakeWhile_imp hc
  refine ⟨(s.rtakeWhile (· = '/')).length, ?_⟩
  rw [← hslashes]
  exact (List.rdropWhile_append_rtakeWhile ..).symm

/-- Slashes that are appended are stripped again. -/
theorem core_append_slashes (s : List Char) (n : Nat) :
    core (s ++ List.replicate n '/') = core s := by
  induction n with
  | zero => rw [List.replicate_zero, List.append_nil]
  | succ n ih =>
    rw [List.replicate_succ', ← List.append_assoc, core, List.rdropWhile_concat_pos _ _ _ (by simp)]
    exact ih

/-- No slash is left at the end. -/
theorem getLast?_core_ne (s : List Char) : (core s).getLast? ≠ some '/' := by
  intro h
  have hne : core s ≠ [] := by
    rintro hnil
    rw [hnil] at h
    cases h
  have hlast := List.rdropWhile_last_not (· = '/') s hne
  rw [List.getLast?_eq_some_getLast hne, Option.some.injEq] at h
  exact hlast (decide_eq_true h)

/-- Where there is no slash at the end nothing is stripped. -/
theorem core_eq_self (h : s.getLast? ≠ some '/') : core s = s := by
  refine List.rdropWhile_eq_self_iff.2 fun hne hlast => h ?_
  rw [List.getLast?_eq_some_getLast hne, Option.some.injEq]
  simpa using hlast

/-- Slashes at the end of a text make a scheme of it if they come in pairs behind a colon. -/
theorem hasScheme_append_slashes (h : s.getLast? ≠ some '/') (n : Nat) :
    hasScheme (s ++ List.replicate n '/') = true ↔
      hasScheme s = true ∨ s.getLast? = some ':' ∧ 2 ≤ n := by
  have hnone (n : Nat) : hasScheme (List.replicate n '/') = false := by
    induction n with
    | zero => rfl
    | succ n ih =>
      rw [List.replicate_succ, hasScheme]
      · exact ih
      · intro r hr
        cases hr
  induction s with
  | nil => simp [hnone, hasScheme]
  | cons c s ih =>
    rw [List.cons_append]
    cases s with
    | nil =>
      by_cases hc : c = ':'
      · subst hc
        match n with
        | 0 => decide
        | 1 => decide
        | n + 2 => simp [List.replicate_succ, hasScheme]
      · rw [List.nil_append, hasScheme, hnone]
        · simp [hc, hasScheme]
        · exact fun r hr => absurd hr hc
    | cons d s =>
      have hlast : (c :: d :: s).getLast? = (d :: s).getLast? := List.getLast?_cons_cons
      rw [hlast] at h ⊢
      -- Two slashes behind the first character are followed by more of the text.
      have hmark : schemeMark <+: c :: (d :: s ++ List.replicate n '/') ↔
          schemeMark <+: c :: d :: s := by
        cases s with
        | nil =>
          have hd : d ≠ '/' := fun hd => h (by rw [hd]; rfl)
          simp [schemeMark, List.cons_prefix_cons, hd.symm]
        | cons e s => simp [schemeMark, List.cons_prefix_cons]
      calc hasScheme (c :: (d :: s ++ List.replicate n '/')) = true
        _ ↔ schemeMark <+: c :: d :: s ∨ hasScheme (d :: s ++ List.replicate n '/') = true := by
          rw [hasScheme_iff, List.infix_cons_iff, hmark, hasScheme_iff]
        _ ↔ schemeMark <+: c :: d :: s ∨ hasScheme (d :: s) = true ∨
            (d :: s).getLast? = some ':' ∧ 2 ≤ n := or_congr_right (ih h)
        _ ↔ hasScheme (c :: d :: s) = true ∨ (d :: s).getLast? = some ':' ∧ 2 ≤ n := by
          rw [hasScheme_iff, hasScheme_iff, @List.infix_cons_iff _ _ c, or_assoc]

/-! ## Places -/

/-- The place stands below something behind the mark of a scheme. -/
def HasHost (u : String) : Prop :=
  ∃ scheme host, host ≠ [] ∧ u.toList = scheme ++ schemeMark ++ host ++ updatesPlace

/-- The text has more than slashes, and if it has the mark of a scheme, then also without
the slashes at its end. -/
structure KeepsMark (s : List Char) : Prop where
  core_ne_nil : core s ≠ []
  mark : schemeMark <:+: s → schemeMark <:+: core s

/-- What the place stands below. -/
theorem base_eq (s : List Char) :
    base s = if schemeMark <:+: s then core s
      else if core s = [] then "http:".toList else "http://".toList ++ core s := by
  have hbase : base s = core (if hasScheme s then s else "http://".toList ++ s) := rfl
  rw [hbase]
  by_cases hmark : schemeMark <:+: s
  · rw [if_pos hmark, if_pos (hasScheme_iff.2 hmark)]
  · rw [if_neg hmark, if_neg (mt hasScheme_iff.1 hmark)]
    rcases exists_eq_core_append s with ⟨n, hs⟩
    have hdrop : core ("http://".toList ++ s) = core ("http://".toList ++ core s) := by
      conv_lhs => rw [hs, ← List.append_assoc, core_append_slashes]
    rw [hdrop]
    by_cases hnil : core s = []
    · rw [if_pos hnil, hnil]
      rfl
    · rw [if_neg hnil]
      apply core_eq_self
      rw [List.getLast?_append_of_ne_nil _ hnil]
      exact getLast?_core_ne s

/-- An address of a server does not end in a slash. -/
theorem getLast?_base_ne (s : List Char) : (base s).getLast? ≠ some '/' :=
  getLast?_core_ne _

/-- An address of a server is never empty, not even if nothing but slashes was given. -/
theorem base_ne_nil (s : List Char) : base s ≠ [] := by
  rw [base_eq]
  split
  · rename_i hmark
    intro hnil
    rcases exists_eq_core_append s with ⟨n, hs⟩
    rw [hnil, List.nil_append] at hs
    rw [hs] at hmark
    have hcolon : ':' ∈ List.replicate n '/' := hmark.subset (by decide)
    cases List.eq_of_mem_replicate hcolon
  · split
    · decide
    · exact List.append_ne_nil_of_left_ne_nil (by decide) _

/-- A text that does not end with a slash has something behind its mark. -/
theorem exists_host_of_infix (hlast : s.getLast? ≠ some '/') (h : schemeMark <:+: s) :
    ∃ scheme host, host ≠ [] ∧ s = scheme ++ schemeMark ++ host := by
  rcases h with ⟨scheme, host, rfl⟩
  refine ⟨scheme, host, ?_, rfl⟩
  rintro rfl
  rw [List.append_nil, List.getLast?_append_of_ne_nil _ (by decide)] at hlast
  exact hlast rfl

variable {server : String} {u : String}

/-- There is no address for a text of blanks. -/
theorem updatesAddress_of_blank (h : Text.isBlankText server = true) :
    updatesAddress server = .error .emptyAddress := by
  have htrim : trim server.toList = [] := Text.trim_eq_nil_iff.2 h
  rw [updatesAddress, htrim]
  rfl

/-- For any other text there is one, which ends in the place for updates. -/
theorem updatesAddress_of_not_blank (h : Text.isBlankText server = false) :
    updatesAddress server =
      .ok (String.ofList (base (trim server.toList) ++ updatesPlace)) := by
  have htrim : trim server.toList ≠ [] := Text.trim_ne_nil h
  simp only [updatesAddress]
  rw [if_neg (by simpa using htrim)]

/-- Only what is left of a text after trimming decides where updates are sent. -/
theorem updatesAddress_of_padded {raw : String} (h : Padded raw server.toList) :
    updatesAddress raw = updatesAddress server := by
  rw [updatesAddress, updatesAddress, h.trim_eq_trim]

/-- There is a host exactly where the mark of the scheme is kept. -/
theorem hasHost_iff (hu : u.toList = base s ++ updatesPlace) : HasHost u ↔ KeepsMark s := by
  have hiff : HasHost u ↔ schemeMark <:+: base s := by
    constructor
    · rintro ⟨scheme, host, -, heq⟩
      rw [hu, List.append_left_inj] at heq
      exact ⟨scheme, host, heq.symm⟩
    · intro h
      rcases exists_host_of_infix (getLast?_base_ne s) h with ⟨scheme, host, hhost, heq⟩
      exact ⟨scheme, host, hhost, by rw [hu, heq]⟩
  rw [hiff, base_eq]
  by_cases hmark : schemeMark <:+: s
  · rw [if_pos hmark]
    refine ⟨fun h => ⟨?_, fun _ => h⟩, fun h => h.mark hmark⟩
    rintro hnil
    rw [hnil] at h
    exact absurd h (by decide)
  · rw [if_neg hmark]
    by_cases hnil : core s = []
    · rw [if_pos hnil]
      exact iff_of_false (by decide) fun h => h.core_ne_nil hnil
    · rw [if_neg hnil]
      exact iff_of_true ⟨"http".toList, core s, rfl⟩ ⟨hnil, fun h => absurd h hmark⟩

/-- More slashes change nothing, unless they make a scheme of what ends with a colon. -/
theorem base_append_slashes_iff :
    (∀ n, base (s ++ List.replicate n '/') = base s) ↔
      ((core s).getLast? = some ':' → schemeMark <:+: s) := by
  rcases exists_eq_core_append s with ⟨k, hs⟩
  have hmark (n : Nat) : schemeMark <:+: s ++ List.replicate n '/' ↔
      schemeMark <:+: core s ∨ (core s).getLast? = some ':' ∧ 2 ≤ k + n := by
    have hslashes := hasScheme_append_slashes (getLast?_core_ne s) (k + n)
    rw [List.replicate_add, ← List.append_assoc, ← hs, hasScheme_iff, hasScheme_iff] at hslashes
    exact hslashes
  constructor
  · intro h hcolon
    have htwo := h 2
    have hne : core s ≠ [] := by
      rintro hnil
      rw [hnil] at hcolon
      cases hcolon
    rw [base_eq, if_pos ((hmark 2).2 (Or.inr ⟨hcolon, Nat.le_add_left 2 k⟩)),
      core_append_slashes, base_eq] at htwo
    by_contra hnone
    rw [if_neg hnone, if_neg hne] at htwo
    have hlength := congrArg List.length htwo
    rw [List.length_append] at hlength
    simp at hlength
  · intro h n
    have hsame : schemeMark <:+: s ++ List.replicate n '/' ↔ schemeMark <:+: s := by
      refine ⟨fun hn => ?_, fun hn => hn.trans (List.prefix_append _ _).isInfix⟩
      rcases (hmark n).1 hn with hcore | ⟨hcolon, -⟩
      · exact hcore.trans (List.rdropWhile_prefix _ s).isInfix
      · exact h hcolon
    rw [base_eq, base_eq, core_append_slashes]
    simp only [hsame]

/-! ## Addresses as a whole -/

/-- What the place is like for a text that is not blank. -/
structure IsPlaceFor (server u : String) : Prop where
  below : ∃ b, b ≠ [] ∧ b.getLast? ≠ some '/' ∧ u.toList = b ++ updatesPlace
  host : HasHost u ↔ KeepsMark (trim server.toList)
  given : schemeMark <:+: trim server.toList →
    u.toList = core (trim server.toList) ++ updatesPlace
  missing : ¬ schemeMark <:+: server.toList → core (trim server.toList) ≠ [] →
    u.toList = "http://".toList ++ core (trim server.toList) ++ updatesPlace
  slashes : (∀ n raw, Padded raw (trim server.toList ++ List.replicate n '/') →
      updatesAddress raw = .ok u) ↔
    ((core (trim server.toList)).getLast? = some ':' → schemeMark <:+: trim server.toList)

/-- The normalized address is a place for the server that was given. -/
theorem isPlaceFor (h : Text.isBlankText server = false) :
    IsPlaceFor server (String.ofList (base (trim server.toList) ++ updatesPlace)) where
  below := ⟨_, base_ne_nil _, getLast?_base_ne _, String.toList_ofList⟩
  host := hasHost_iff String.toList_ofList
  given hmark := by rw [String.toList_ofList, base_eq, if_pos hmark]
  missing hnone hcore := by
    have htrim : ¬ schemeMark <:+: trim server.toList := fun hmark =>
      hnone (hmark.trans (Text.isInfix_trim _))
    rw [String.toList_ofList, base_eq, if_neg htrim, if_neg hcore]
  slashes := by
    rw [← base_append_slashes_iff]
    have hne : trim server.toList ≠ [] := Text.trim_ne_nil h
    -- Slashes behind what is left of a text are not trimmed.
    have htrim (n : Nat) : trim (trim server.toList ++ List.replicate n '/') =
        trim server.toList ++ List.replicate n '/' := by
      apply Text.trim_eq_self_of_ends
      · rw [List.head?_append_of_ne_nil _ hne]
        exact Text.isBlank_of_mem_head?_trim
      · intro c hc
        rw [List.getLast?_append, Option.mem_def, Option.or_eq_some_iff] at hc
        rcases hc with hslash | ⟨-, hlast⟩
        · rw [List.eq_of_mem_replicate (List.mem_of_getLast? hslash)]
          decide
        · exact Text.isBlank_of_mem_getLast?_trim c hlast
    have hsent {raw : String} {n : Nat}
        (hraw : Padded raw (trim server.toList ++ List.replicate n '/')) :
        updatesAddress raw = .ok (String.ofList
          (base (trim server.toList ++ List.replicate n '/') ++ updatesPlace)) := by
      have hleft : trim raw.toList = trim server.toList ++ List.replicate n '/' := by
        rw [hraw.trim_eq_trim, htrim]
      rw [updatesAddress, hleft]
      simp [hne]
    constructor
    · intro hsame n
      have hn := hsent (Text.padded_ofList (trim server.toList ++ List.replicate n '/'))
      rw [hsame n _ (Text.padded_ofList _), Except.ok.injEq, String.ofList_inj,
        List.append_left_inj] at hn
      exact hn.symm
    · intro hsame n raw hraw
      rw [hsent hraw, hsame n]

/-- Whatever text an agent is given, blanks around it make no difference; a text of blanks
is refused, and for any other one there is a place to send lists of updates to. -/
theorem updatesAddress_usable (server : String) :
    (updatesAddress server = .error .emptyAddress ↔ Text.isBlankText server = true) ∧
      (∀ raw, Padded raw server.toList → updatesAddress raw = updatesAddress server) ∧
      (Text.isBlankText server = false → ∃ u, updatesAddress server = .ok u ∧
        IsPlaceFor server u) := by
  refine ⟨⟨fun h => ?_, updatesAddress_of_blank⟩, fun raw => updatesAddress_of_padded, fun h => ?_⟩
  · by_contra hblank
    rw [updatesAddress_of_not_blank (by simpa using hblank)] at h
    cases h
  · exact ⟨_, updatesAddress_of_not_blank h, isPlaceFor h⟩

/-- An address without scheme, with blanks around it and a slash at its end. -/
theorem updatesAddress_usable_of_slash :
    Text.isBlankText " localhost:8080/\t" = false ∧
      ∃ u, updatesAddress " localhost:8080/\t" = .ok u ∧ HasHost u ∧
        u = "http://localhost:8080/updates" := by
  refine ⟨by decide, ?_⟩
  rcases (updatesAddress_usable " localhost:8080/\t").2.2 (by decide) with ⟨u, hu, hplace⟩
  have hcore : core (trim " localhost:8080/\t".toList) = "localhost:8080".toList := by decide
  have hkeeps : KeepsMark (trim " localhost:8080/\t".toList) := by
    constructor <;> rw [hcore] <;> decide
  refine ⟨u, hu, hplace.host.2 hkeeps, ?_⟩
  rw [← String.toList_inj, hplace.missing (by decide) (by rw [hcore]; decide), hcore]
  decide

/-- A slash alone loses the mark that was put in front of it, and two slashes behind a port
that is left out are taken for one. -/
theorem not_hasHost_of_slash :
    (Text.isBlankText "/" = false ∧ ∃ u, updatesAddress "/" = .ok u ∧ ¬ HasHost u ∧
        ¬ "http://".toList <+: u.toList) ∧
      updatesAddress "localhost:" = .ok "http://localhost:/updates" ∧
      updatesAddress "localhost://" = .ok "localhost:/updates" := by
  refine ⟨⟨by decide, "http:/updates", by decide, ?_, by decide⟩, by decide, by decide⟩
  rintro ⟨scheme, host, -, hu⟩
  have hmark : schemeMark <:+: "http:/updates".toList :=
    ⟨scheme, host ++ updatesPlace, by rw [hu, List.append_assoc (scheme ++ schemeMark)]⟩
  exact absurd hmark (by decide)

end Agent

end MetricRelay
