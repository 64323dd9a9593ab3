import MetricRelay.Proofs.Metric.Canonical
import MetricRelay.Proofs.Number.FreeText

/-!
# Texts that stand for values

A value is stored, shown and signed as its text, and a text that arrives is read as a
value.  The text of a value is a plain literal that stands for this value alone,
whatever blanks are put around it.  A text that is read as a reading is a literal
whose number a double can hold; the names of the other doubles are refused, and so is
a number that is too large, unless the digits that are left out of its exponent make
it small again.

Main definitions:

- `Text.Padded`: a text with blanks around it.
- `Value.IsTextOf`: what the text of a value is like.
- `Value.IsReadSoundly`: what becomes of a text that is read.

Main results:

- `Text.Padded.trim_eq`: the blanks around a text are trimmed away.
- `Value.isRefused_iff`: which literals are refused.
- `Value.texts_faithful`: the texts of values, and what is read from any text.
-/

namespace MetricRelay

/-! ## Blanks around a text -/

namespace Text

/-- The text `raw` is `s` with blanks around it. -/
def Padded (raw : String) (s : List Char) : Prop :=
  ∃ before after, before.all isBlank = true ∧ after.all isBlank = true ∧
    raw.toList = before ++ (s ++ after)

variable {raw : String} {s : List Char}

theorem padded_ofList (s : List Char) : Padded (String.ofList s) s :=
  ⟨[], [], rfl, rfl, by simp⟩

/-- The blanks around a text are trimmed away. -/
theorem Padded.trim_eq (h : Padded raw s) (hs : ∀ c ∈ s, isBlank c = false) (hne : s ≠ []) :
    trim raw.toList = s := by
  rcases h with ⟨before, after, hbefore, hafter, hraw⟩
  have hreverse : after.reverse.all isBlank = true := by rw [List.all_reverse, hafter]
  have hfirst : ∀ c ∈ (s ++ after).head?, isBlank c = false := by
    intro c hc
    rw [List.head?_append, Option.or_of_isSome (by simpa using hne)] at hc
    exact hs c (List.mem_of_mem_head? hc)
  have hlast : ∀ c ∈ s.reverse.head?, isBlank c = false := fun c hc =>
    hs c (List.mem_reverse.1 (List.mem_of_mem_head? hc))
  rw [hraw, trim, dropWhile_append_of_head? hbefore hfirst, trimEnd, List.reverse_append,
    dropWhile_append_of_head? hreverse hlast, List.reverse_reverse]

/-- A text is what is left of it when it is trimmed, with blanks around it. -/
theorem padded_trim (raw : String) : Padded raw (trim raw.toList) := by
  generalize hs : raw.toList.dropWhile isBlank = s
  refine ⟨raw.toList.takeWhile isBlank, (s.reverse.takeWhile isBlank).reverse, List.all_takeWhile,
    ?_, ?_⟩
  · rw [List.all_reverse, List.all_takeWhile]
  · have hend : trimEnd s ++ (s.reverse.takeWhile isBlank).reverse = s := by
      rw [trimEnd, ← List.reverse_append, List.takeWhile_append_dropWhile, List.reverse_reverse]
    rw [trim, hs, hend, ← hs, List.takeWhile_append_dropWhile]

/-- No character of such a text is blank. -/
theorem isBlank_of_mem (h : (s.all fun d => !isBlank d) = true) : ∀ c ∈ s, isBlank c = false := by
  intro c hc
  simpa using List.all_eq_true.1 h c hc

/-- A character is not blank if its lower case is not. -/
theorem isBlank_of_lowerAscii {c : Char} (h : isBlank (lowerAscii c) = false) :
    isBlank c = false := by
  unfold lowerAscii at h
  split at h
  · rename_i hupper
    simp only [Bool.and_eq_true, decide_eq_true_eq, Char.le_def, UInt32.le_iff_toNat_le] at hupper
    have hrange : 65 ≤ c.toNat ∧ c.toNat ≤ 90 := hupper
    simp [isBlank, inRanges, blankRanges]
    omega
  · exact h

end Text

theorem IsSign.isBlank_of_mem {sign : List Char} {negative : Bool} (h : IsSign sign negative) :
    ∀ c ∈ sign, Text.isBlank c = false := by
  cases h <;> exact Text.isBlank_of_mem rfl

/-- There are no blanks in a name. -/
theorem IsName.isBlank_of_mem {s : List Char} (h : IsName s) : ∀ c ∈ s, Text.isBlank c = false := by
  intro c hc
  have hall : (["nan".toList, "inf".toList, "infinity".toList].all fun name =>
      name.all fun d => !Text.isBlank d) = true := rfl
  have hlower := Text.isBlank_of_mem (List.all_eq_true.1 hall _ h)
  exact Text.isBlank_of_lowerAscii (hlower _ (List.mem_map_of_mem hc))

/-- A name of a number has letters. -/
theorem IsName.ne_nil {s : List Char} (h : IsName s) : s ≠ [] := by
  rintro rfl
  exact absurd h (by decide)

namespace Literal.Readable

variable {x : Literal}

/-- There are no blanks in a literal. -/
theorem isBlank_of_mem (h : x.Readable) : ∀ c ∈ x.chars, Text.isBlank c = false :=
  fun _ hc => Text.isBlank_of_numeral (h.mem_chars hc)

/-- A literal that can be read has characters. -/
theorem chars_ne_nil (h : x.Readable) : x.chars ≠ [] := by
  rcases h.exists_cons with ⟨c, r, hchars, -⟩
  rw [hchars]
  exact List.cons_ne_nil c r

end Literal.Readable

namespace Value

open Text (Padded)

/-! ## Texts of values -/

/-- The text of a value: a literal without exponent behind an optional minus sign,
without a point for a total.  With blanks around it, it stands for the value, and no
other value of the kind has the same text. -/
structure IsTextOf (v : Value) (text : String) : Prop where
  literal : ∃ negative, ∃ x : Literal, x.Valid ∧ x.exponent = none ∧
    (v.kind = .counter → x.fraction = none) ∧ text.toList = x.signed negative
  read_back : ∀ {raw}, Padded raw text.toList → parse v.kind raw = .ok v
  only : ∀ {w : Value}, w.isFinite = true → w.kind = v.kind → w.canonical = text → w = v

variable {v : Value} {kind : Kind} {raw raw' : String}

/-- The text of a finite value is a literal without exponent. -/
theorem exists_literal_canonical (h : v.isFinite = true) :
    ∃ negative, ∃ x : Literal, x.Valid ∧ x.exponent = none ∧
      (v.kind = .counter → x.fraction = none) ∧ v.canonical.toList = x.signed negative := by
  cases v with
  | total n =>
    rcases intChars_eq_signed n.val with ⟨negative, size, hchars⟩
    have htext : (total n).canonical.toList = intChars n.val := String.toList_ofList
    exact ⟨negative, natLiteral size, valid_natLiteral size, rfl, fun _ => rfl, htext.trans hchars⟩
  | reading y =>
    have htext : (reading y).canonical.toList = Binary64.canonical.chars y := String.toList_ofList
    cases y with
    | nan => cases h
    | infinite => cases h
    | finite negative rank =>
      have hexponent := Layout.exponent_literal (l := Binary64.canonical) rfl rfl rank.val
      refine ⟨negative, Binary64.canonical.literal rank.val, Layout.valid_literal _ _, hexponent,
        fun hkind => ?_, ?_⟩
      · cases hkind
      · rw [htext, Layout.chars_finite]

/-- Only what is left of a text after trimming decides what it is read as. -/
theorem parse_of_trim_eq (htrim : Text.trim raw'.toList = Text.trim raw.toList)
    (h : parse kind raw = .ok v) : parse kind raw' = .ok v := by
  unfold parse at h ⊢
  simp only [htrim] at h ⊢
  cases kind with
  | counter =>
    cases hread : readCount? (Text.trim raw.toList) with
    | none => simp [hread] at h
    | some n => simpa [hread] using h
  | gauge =>
    cases hread : readDouble? (Text.trim raw.toList) with
    | none => simp [hread] at h
    | some y => simpa [hread] using h

/-- The text of a finite value is a text of the value. -/
theorem isTextOf_canonical (h : v.isFinite = true) : v.IsTextOf v.canonical where
  literal := exists_literal_canonical h
  read_back := by
    intro raw hraw
    rcases exists_literal_canonical h with ⟨negative, x, hx, -, -, htext⟩
    have hblank : ∀ c ∈ v.canonical.toList, Text.isBlank c = false := by
      rw [htext]
      exact hx.isBlank_of_mem_signed
    have hne : v.canonical.toList ≠ [] := by
      rw [htext]
      exact List.append_ne_nil_of_right_ne_nil _ hx.readable.chars_ne_nil
    apply parse_of_trim_eq _ (parse_canonical h)
    rw [hraw.trim_eq hblank hne, Text.trim_eq_self hblank]
  only hw hkind htext := canonical_injective hw h hkind htext

/-! ## What is read -/

/-- The text is refused as a reading. -/
def IsRefused (raw : String) : Prop :=
  ∃ shown, parse .gauge raw = .error (.unreadable Kind.gauge.name shown)

/-- What becomes of a text that is read.  A value stays the same when it is written and
read again.  A reading is a literal with a sign; a name is refused, and so is a number
that is too large, except where it fits once digits are left out of its exponent. -/
structure IsReadSoundly (raw : String) : Prop where
  again : ∀ {kind v}, parse kind raw = .ok v → parse kind v.canonical = .ok v
  literal : ∀ {v}, parse .gauge raw = .ok v → ∃ sign negative, ∃ x : Literal,
    IsSign sign negative ∧ x.Readable ∧ Padded raw (sign ++ x.chars) ∧
      v = .reading (Binary64.ofDecimal negative x.digits (x.powerIn cappedDigits))
  not_name : ∀ {sign s negative}, IsSign sign negative → IsName s → Padded raw (sign ++ s) →
    IsRefused raw
  not_large : ∀ {sign negative} {x : Literal}, IsSign sign negative → x.Readable →
    Padded raw (sign ++ x.chars) → Binary64.Overflows x.digits x.power →
      (x.exponentIn digitsNat < 655360 ∨ (x.fraction.getD []).length ≤ 65227 → IsRefused raw) ∧
      (IsRefused raw ↔ Binary64.Overflows x.digits (x.powerIn cappedDigits))

section Signed

variable {sign s : List Char} {negative : Bool}

/-- A text with a sign and with blanks around it is read without the blanks. -/
theorem parse_gauge_of_padded {y : Binary64} (hsign : IsSign sign negative)
    (hraw : Padded raw (sign ++ s)) (hblank : ∀ c ∈ s, Text.isBlank c = false) (hne : s ≠ [])
    (hread : readDouble? (sign ++ s) = some y) : parse .gauge raw = (reading y).finite := by
  have hall : ∀ c ∈ sign ++ s, Text.isBlank c = false := fun c hc =>
    (List.mem_append.1 hc).elim (hsign.isBlank_of_mem c) (hblank c)
  have htrim := hraw.trim_eq hall (List.append_ne_nil_of_right_ne_nil _ hne)
  simp only [parse, htrim, hread]

/-- A name is refused. -/
theorem isRefused_of_isName (hsign : IsSign sign negative) (hname : IsName s)
    (hraw : Padded raw (sign ++ s)) : IsRefused raw := by
  rcases hname.readDouble?_append hsign with ⟨y, hread, hy⟩
  refine ⟨(reading y).canonical, ?_⟩
  rw [parse_gauge_of_padded hsign hraw hname.isBlank_of_mem hname.ne_nil hread,
    finite_of_not_isFinite (v := .reading y) hy]

/-- A literal is refused if its number is too large with the exponent as free text
counts it. -/
theorem isRefused_iff {x : Literal} (hsign : IsSign sign negative) (hx : x.Readable)
    (hraw : Padded raw (sign ++ x.chars)) :
    IsRefused raw ↔ Binary64.Overflows x.digits (x.powerIn cappedDigits) := by
  have hparse := parse_gauge_of_padded hsign hraw hx.isBlank_of_mem hx.chars_ne_nil
    (hx.readDouble?_append hsign)
  unfold IsRefused
  rw [hparse]
  by_cases hlarge : Binary64.Overflows x.digits (x.powerIn cappedDigits)
  · rw [Binary64.ofDecimal_of_overflows negative hlarge]
    exact iff_of_true ⟨_, finite_of_not_isFinite rfl⟩ hlarge
  · refine iff_of_false ?_ hlarge
    rintro ⟨shown, hshown⟩
    have hfinite := Binary64.isFinite_ofDecimal negative hlarge
    rw [finite_of_isFinite (v := .reading _) hfinite] at hshown
    cases hshown

end Signed

/-- What is read as a reading is a literal with a sign. -/
theorem exists_literal_of_parse_gauge (h : parse .gauge raw = .ok v) :
    ∃ sign negative, ∃ x : Literal, IsSign sign negative ∧ x.Readable ∧
      Padded raw (sign ++ x.chars) ∧
        v = .reading (Binary64.ofDecimal negative x.digits (x.powerIn cappedDigits)) := by
  have hfinite := isFinite_of_parse h
  simp only [parse] at h
  cases hread : readDouble? (Text.trim raw.toList) with
  | none => simp [hread] at h
  | some y =>
    have hv : v = .reading y := by
      simp only [hread, finite] at h
      split at h
      · exact (Except.ok.inj h).symm
      · cases h
    rw [hv] at hfinite ⊢
    rcases exists_literal_of_readDouble? hread hfinite.1 with
      ⟨sign, negative, x, hsign, hx, htrim, hy⟩
    refine ⟨sign, negative, x, hsign, hx, ?_, congrArg reading hy⟩
    rw [← htrim]
    exact Text.padded_trim raw

/-- Any text is read soundly. -/
theorem isReadSoundly (raw : String) : IsReadSoundly raw where
  again h := by
    rcases isFinite_of_parse h with ⟨hfinite, rfl⟩
    exact parse_canonical hfinite
  literal := exists_literal_of_parse_gauge
  not_name := isRefused_of_isName
  not_large hsign hx hraw hlarge := by
    have hiff := isRefused_iff hsign hx hraw
    exact ⟨fun hcounts => hiff.2 (hx.overflows_powerIn hlarge hcounts), hiff⟩

/-- The text of a finite value stands for this value alone, and whatever is read from a
text is the value of a literal, which is written and read again without change. -/
theorem texts_faithful :
    (∀ v : Value, v.isFinite = true → v.IsTextOf v.canonical) ∧ ∀ raw, IsReadSoundly raw :=
  ⟨fun _ => isTextOf_canonical, isReadSoundly⟩

/-- A negative zero is read back, and an infinite and a large reading are refused. -/
theorem texts_faithful_at_both_ends :
    parse .gauge "\u2003-0\n" = .ok (.reading (Binary64.zero true)) ∧
      IsRefused " +iNf" ∧ IsRefused "\t+.1E310" := by
  let x : Literal := ⟨[], some ['1'], 'E', some ['3', '1', '0']⟩
  have hx : x.Readable := by
    refine ⟨rfl, fun f hf => ?_, by decide, Or.inr rfl, fun e he => ?_⟩
    · cases hf
      rfl
    · cases he
      exact ⟨['3', '1', '0'], ⟨by decide, by decide⟩, Or.inl rfl⟩
  refine ⟨?_, ?_, ?_⟩
  · exact (texts_faithful.1 (.reading (Binary64.zero true)) rfl).read_back
      ⟨['\u2003'], ['\n'], by decide, by decide, by decide +kernel⟩
  · exact (texts_faithful.2 _).not_name (s := "iNf".toList) .plus (by decide)
      ⟨[' '], [], by decide, rfl, rfl⟩
  · refine ((texts_faithful.2 _).not_large .plus hx ⟨['\t'], [], by decide, rfl, rfl⟩ ?_).1
      (Or.inl (by decide))
    exact Binary64.overflows_of_le (by decide) (by decide)

/-- The exponent of a number that is too large by far is not counted in full, and the
number is read as one. -/
theorem not_isRefused_crowded :
    let x := Literal.crowded 0xffff
    let raw := String.ofList (x.signed false)
    x.Readable ∧ Padded raw ([] ++ x.chars) ∧ Binary64.Overflows x.digits x.power ∧
      parse .gauge raw = .ok (.reading (Binary64.ofDecimal false 1 0)) ∧ ¬ IsRefused raw := by
  intro x raw
  have hx : x.Readable := (Literal.valid_crowded _).readable
  have hraw : Padded raw ([] ++ x.chars) := Text.padded_ofList x.chars
  have hlarge : Binary64.Overflows x.digits x.power := by
    rw [Literal.digits_crowded, Literal.power_crowded]
    exact Binary64.overflows_of_le (by decide) (by decide)
  have hone : (Binary64.ofDecimal false 1 0).isFinite = true := by decide +kernel
  have hparse : parse .gauge raw = .ok (.reading (Binary64.ofDecimal false 1 0)) := by
    rw [parse_gauge_of_padded .none hraw hx.isBlank_of_mem hx.chars_ne_nil
      (Literal.readDouble?_crowded rfl false)]
    exact finite_of_isFinite hone
  refine ⟨hx, hraw, hlarge, hparse, ?_⟩
  rintro ⟨shown, hshown⟩
  rw [hparse] at hshown
  cases hshown

end Value

end MetricRelay
