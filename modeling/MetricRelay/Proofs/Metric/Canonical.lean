import MetricRelay.Metric.Basic
import MetricRelay.Proofs.Number.Layout

/-!
# Values and their canonical texts

The text by which a value is stored stands for the value: reading it gives the
value back, bit for bit.  What is read from any text is finite.

Main results:

- `Value.parse_canonical`: a finite value is read back from its text.
- `Value.isFinite_of_parse`: a value that was read is finite.
-/

namespace MetricRelay

/-! ## Kinds -/

namespace Kind

variable {type : String} {kind : Kind}

/-- The text of a kind is its name, in this case only. -/
theorem ofName?_eq_some_iff : ofName? type = some kind ↔ kind.name = type := by
  constructor
  · intro h
    unfold ofName? at h
    split at h
    · rename_i hcounter
      cases h
      exact hcounter.symm
    · split at h
      · rename_i hgauge
        cases h
        exact hgauge.symm
      · cases h
  · rintro rfl
    exact ofName?_name kind

/-- Kinds have different names. -/
theorem name_injective {kind' : Kind} (h : kind.name = kind'.name) : kind = kind' := by
  have hread := ofName?_name kind
  rw [h, ofName?_name] at hread
  exact (Option.some.inj hread).symm

/-- A type is accepted if it is the name of a kind. -/
theorem parse_eq_ok_iff : parse type = .ok kind ↔ kind.name = type := by
  rw [← ofName?_eq_some_iff, parse]
  cases ofName? type <;> simp

end Kind

/-! ## Blanks -/

/-- A text without blanks stays as it is. -/
theorem Text.trim_eq_self {s : List Char} (h : ∀ c ∈ s, Text.isBlank c = false) :
    Text.trim s = s := by
  have hdrop {t : List Char} (ht : ∀ c ∈ t, Text.isBlank c = false) :
      t.dropWhile Text.isBlank = t := by
    cases t with
    | nil => rfl
    | cons c r => rw [List.dropWhile_cons, ht c List.mem_cons_self, if_neg Bool.false_ne_true]
  have hreverse : ∀ c ∈ s.reverse, Text.isBlank c = false := fun c hc =>
    h c (List.mem_reverse.1 hc)
  rw [Text.trim, Text.trimEnd, hdrop h, hdrop hreverse, List.reverse_reverse]

/-- Digits are not blank. -/
theorem Text.isBlank_of_isDigit {c : Char} (h : isDigit c = true) : Text.isBlank c = false := by
  have hrange := (isDigit_iff c).1 h
  simp [Text.isBlank, Text.inRanges, Text.blankRanges]
  omega

/-- The characters of a number are not blank. -/
theorem Text.isBlank_of_numeral {c : Char} (h : isDigit c = true ∨ c ∈ ['.', 'e', 'E', '-', '+']) :
    Text.isBlank c = false := by
  rcases h with hdigit | hother
  · exact Text.isBlank_of_isDigit hdigit
  · have hall : (['.', 'e', 'E', '-', '+'].all fun d => !Text.isBlank d) = true := rfl
    exact Bool.not_eq_true' _ ▸ List.all_eq_true.1 hall c hother

/-- There are no blanks in a literal. -/
theorem Literal.Valid.isBlank_of_mem_signed {x : Literal} (h : x.Valid) {negative : Bool} :
    ∀ c ∈ x.signed negative, Text.isBlank c = false :=
  fun _ hc => Text.isBlank_of_numeral (h.mem_signed hc)

/-- There are no blanks around an integer. -/
theorem trim_intChars (n : Int) : Text.trim (intChars n) = intChars n := by
  rcases intChars_eq_signed n with ⟨negative, size, h⟩
  rw [h]
  exact Text.trim_eq_self (valid_natLiteral size).isBlank_of_mem_signed

/-- There are none around a double. -/
theorem Layout.trim_chars (l : Layout) {x : Binary64} (h : x.isFinite = true) :
    Text.trim (l.chars x) = l.chars x := by
  cases x with
  | nan => cases h
  | infinite => cases h
  | finite negative rank =>
    rw [Layout.chars_finite]
    exact Text.trim_eq_self (Layout.valid_literal l rank.val).isBlank_of_mem_signed

/-! ## Values -/

namespace Value

theorem finite_of_isFinite {v : Value} (h : v.isFinite = true) : v.finite = .ok v := by
  rw [finite, if_pos h]

/-- A value that is not finite is refused as a gauge, with its text. -/
theorem finite_of_not_isFinite {v : Value} (h : v.isFinite = false) :
    v.finite = .error (.unreadable Kind.gauge.name v.canonical) := by
  rw [finite, h]
  rfl

/-- A finite value is read back from its text. -/
theorem parse_canonical {v : Value} (h : v.isFinite = true) :
    parse v.kind v.canonical = .ok v := by
  cases v with
  | total n =>
    have htext : (total n).canonical.toList = intChars n.val := String.toList_ofList
    simp only [parse, kind, htext, trim_intChars, readCount?_intChars]
  | reading x =>
    have htext : (reading x).canonical.toList = Binary64.canonical.chars x := String.toList_ofList
    simp only [parse, kind, htext, Binary64.canonical.trim_chars h,
      Layout.readDouble?_chars (l := Binary64.canonical) rfl rfl h]
    exact finite_of_isFinite h

/-- A value that was read is finite and of the kind that was asked for. -/
theorem isFinite_of_parse {kind : Kind} {raw : String} {v : Value} (h : parse kind raw = .ok v) :
    v.isFinite = true ∧ v.kind = kind := by
  cases kind with
  | counter =>
    simp only [parse] at h
    split at h
    · cases h
      exact ⟨rfl, rfl⟩
    · cases h
  | gauge =>
    simp only [parse] at h
    split at h
    · rename_i x _
      cases hx : (reading x).isFinite with
      | true =>
        rw [finite_of_isFinite hx] at h
        cases h
        exact ⟨hx, rfl⟩
      | false =>
        rw [finite_of_not_isFinite hx] at h
        cases h
    · cases h

/-- Different finite values of a kind have different texts. -/
theorem canonical_injective {v w : Value} (hv : v.isFinite = true) (hw : w.isFinite = true)
    (hkind : v.kind = w.kind) (h : v.canonical = w.canonical) : v = w := by
  have hparse := parse_canonical hv
  rw [h, hkind, parse_canonical hw] at hparse
  exact (Except.ok.inj hparse).symm

end Value

end MetricRelay
