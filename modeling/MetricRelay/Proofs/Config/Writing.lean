import Mathlib.Data.List.Nodup
import MetricRelay.Config.Basic
import MetricRelay.Proofs.Number.Digits
import MetricRelay.Proofs.Yaml.Parsing

/-!
# Configurations as block texts

A configuration is written part by part.  The parts stand in any order, and so do the fields of
each part; a field may be left out where its content is the default, and so may a part without
fields.  How a content is written says of which type it is.

Main definitions:

- `Config.Content` and `Config.Says`: what fields say, and how they are written.
- `Config.Field` and `Config.Part`: what a configuration states.
- `Config.Writes`: the block texts that state a configuration.
- `Config.Oversteps`: the block texts with an unknown or a repeated name.

Main results:

- `Config.fields_root`, `Config.fieldsOf_part`: the parts of a configuration in its text.
- `Config.orElse_field`: a field is read as what the configuration states, or it is left out.
- `Config.exists_reason_of_oversteps`: unknown and repeated names are refused.
- `Config.exists_writes`: every configuration of printable texts has a text.
-/

namespace MetricRelay.Config

open Yaml (Document Fields Node Read)
open Yaml.Block (Item Line Name Quoted Scalar Section Word)

/-! ## What fields say -/

/-- The content of a field. -/
inductive Content where
  | nothing
  | number (n : Nat)
  | flag (b : Bool)
  | text (s : String)

/-- The content of an optional text. -/
def Content.ofText : Option String → Content
  | some s => text s
  | none => nothing

/-- The absence of a text is told from every text. -/
theorem Content.ofText_injective {s t : Option String} (h : ofText s = ofText t) : s = t := by
  cases s <;> cases t <;> cases h <;> rfl

/-- The words for a truth value. -/
def flagWords : Bool → List String
  | true => ["true", "True", "TRUE"]
  | false => ["false", "False", "FALSE"]

/-- The ways to write a content: no value or a word for nothing, the digits of a number, a word
for a truth value, and a text in double quotes. -/
inductive Says : Scalar → Content → Prop
  | nothing : Says .nothing .nothing
  | null {w : Word} (h : String.ofList w.chars ∈ ["null", "Null", "NULL"]) : Says (.word w) .nothing
  | number {w : Word} {n : Nat} (h : w.chars = natChars n) : Says (.word w) (.number n)
  | flag {w : Word} {b : Bool} (h : String.ofList w.chars ∈ flagWords b) : Says (.word w) (.flag b)
  | text (q : Quoted) : Says (.quoted q) (.text (String.ofList q.text))

/-- A field: its name, its content, and the content that it has if it is left out. -/
structure Field where
  name : String
  content : Content
  default : Content

/-- A part of a configuration. -/
structure Part where
  name : String
  fields : List Field

/-- The names of the fields of a part. -/
def Part.names (p : Part) : List String := p.fields.map (·.name)

/-! ## Texts that state a configuration -/

/-- Lines that state some fields, each at most once, in any order.  A field without a line has
its default. -/
structure States (fields : List Field) (lines : List Line) : Prop where
  nodup : (lines.map (·.name.label)).Nodup
  agrees : ∀ l ∈ lines, ∃ f ∈ fields, f.name = l.name.label ∧ Says l.value f.content
  omits : ∀ f ∈ fields, f.name ∉ lines.map (·.name.label) → f.content = f.default

/-- The lines in an item: those of a record, and none where nothing stands behind the name. -/
inductive Holds : Item → List Line → Prop
  | empty {l : Line} (h : l.value = .nothing) : Holds (.line l) []
  | record (s : Section) : Holds (.record s) s.lines

/-- A block text that states a version and some parts, in any order.  A part that is left out
has no fields that must be stated. -/
structure Writes (b : Yaml.Block) (version : Nat) (parts : List Part) : Prop where
  nodup : (b.items.map (·.name.label)).Nodup
  version : ∃ l, .line l ∈ b.items ∧ l.name.label = "version" ∧ Says l.value (.number version)
  states : ∀ i ∈ b.items, i.name.label ≠ "version" →
    ∃ p ∈ parts, p.name = i.name.label ∧ ∃ lines, Holds i lines ∧ States p.fields lines
  omits : ∀ p ∈ parts, p.name ∉ b.items.map (·.name.label) → States p.fields []

/-- Names of which one is not known, or one stands twice. -/
def Exceeds (names known : List String) : Prop := (∃ n ∈ names, n ∉ known) ∨ ¬names.Nodup

/-- A block text with a name that is not known or stands twice, in the outermost record or in a
part. -/
def Oversteps (b : Yaml.Block) (parts : List Part) : Prop :=
  Exceeds (b.items.map (·.name.label)) ("version" :: parts.map (·.name)) ∨
    ∃ p ∈ parts, ∃ s, .record s ∈ b.items ∧ s.name.label = p.name ∧
      Exceeds (s.lines.map (·.name.label)) p.names

/-! ## Contents of fields -/

/-- The number of a row of digits, digit by digit. -/
theorem readDigits_eq {s : List Char} (h : s.all isDigit = true) (start : Nat) :
    s.foldlM (fun n c => (Yaml.digitIn? 10 c).map fun d => n * 10 + d) start =
      some (foldDigits start s) := by
  induction s generalizing start with
  | nil => rfl
  | cons c s ih =>
    rw [List.all_cons, Bool.and_eq_true] at h
    have hrange := (isDigit_iff c).1 h.1
    have hdigit : Yaml.digitIn? 10 c = some (digitValue c) := by
      have hlt : c.toNat - 0x30 < 10 := by omega
      simp only [Yaml.digitIn?, Hex.digitValue?, hrange, and_self, if_true]
      simp [Option.filter, hlt, digitValue]
    rw [List.foldlM_cons, hdigit]
    exact ih h.2 _

/-- A number is read from its digits. -/
theorem readNatural?_natChars (n : Nat) : Yaml.readNatural? (natChars n) = some n := by
  rcases Nat.eq_zero_or_pos n with rfl | hn
  · rw [natChars_of_lt (by decide)]
    rfl
  have hall := all_isDigit_natChars n
  have hdigits : Yaml.readDigits? 10 (natChars n) = some n := by
    rw [Yaml.readDigits?, readDigits_eq hall, if_neg (by simpa using natChars_ne_nil n)]
    exact congrArg some (digitsNat_natChars n)
  -- Neither a sign nor the sign of a base stands in front.
  have hhead := head?_natChars hn
  cases hchars : natChars n with
  | nil => exact absurd hchars (natChars_ne_nil n)
  | cons c r =>
    rw [hchars] at hhead hall hdigits
    rw [List.all_cons, Bool.and_eq_true] at hall
    have hplus : c ≠ '+' := ne_of_isDigit hall.1 (by decide)
    have hzero : c ≠ '0' := fun h => hhead (by rw [h]; rfl)
    simp [Yaml.readNatural?, hplus, hzero, hdigits]

/-- A word is one of some texts if its characters are those of one. -/
theorem exists_toList_eq {s : List Char} {words : List String} (h : String.ofList s ∈ words) :
    ∃ word ∈ words, s = word.toList :=
  ⟨_, h, (String.toList_ofList).symm⟩

/-- A text is read from what says it. -/
theorem text_of_says {d : Document} {v : Scalar} {s : String} (h : Says v (.text s)) :
    d.text v.node = .ok s := by
  cases h
  rfl

/-- A text that may be absent is read from what says it, or says that it is. -/
theorem optionalText_of_says {d : Document} {v : Scalar} {s : Option String}
    (h : Says v (.ofText s)) : d.optionalText v.node = .ok s := by
  cases s with
  | some s =>
    cases h
    rfl
  | none =>
    cases h with
    | nothing => rfl
    | @null w hword =>
      have hnothing : Yaml.isNothing w.chars = true := by
        rcases exists_toList_eq hword with ⟨word, hmem, hchars⟩
        rw [hchars]
        clear hword hchars
        revert word
        decide
      simp [Document.optionalText, Document.resolve, Scalar.node, hnothing]

/-- A number up to the greatest is read from what says it. -/
theorem natural_of_says {d : Document} {v : Scalar} {n greatest : Nat} (h : Says v (.number n))
    (hn : n ≤ greatest) : d.natural greatest v.node = .ok n := by
  cases h with
  | number hchars =>
    simp [Document.natural, Document.resolve, Scalar.node, Yaml.mayStandFor, hchars,
      readNatural?_natChars, hn]

/-- A flag is read from what says it. -/
theorem boolean_of_says {d : Document} {v : Scalar} {b : Bool} (h : Says v (.flag b)) :
    d.boolean v.node = .ok b := by
  cases h with
  | @flag w b hword =>
    have hread : Yaml.readBoolean? w.chars = some b := by
      rcases exists_toList_eq hword with ⟨word, hmem, hchars⟩
      rw [hchars]
      clear hword hchars
      revert b word
      decide
    simp [Document.boolean, Document.resolve, Scalar.node, Yaml.mayStandFor, hread]

/-! ## Fields of a record -/

/-- What stands behind a name that stands once. -/
theorem lookup_of_mem {α : Type} (entry : α → String × Node) :
    ∀ {as : List α}, (as.map fun a => (entry a).1).Nodup → ∀ {a}, a ∈ as →
      (as.map entry).lookup (entry a).1 = some (entry a).2
  | b :: as, hnodup, a, ha => by
    rw [List.map_cons, List.nodup_cons] at hnodup
    rw [List.map_cons, List.lookup_cons]
    rcases List.mem_cons.1 ha with rfl | ha
    · simp
    · have hne : (entry a).1 ≠ (entry b).1 := fun h =>
        hnodup.1 (h ▸ List.mem_map_of_mem (f := fun a => (entry a).1) ha)
      have hbeq : ((entry a).1 == (entry b).1) = false := by simpa using hne
      rw [hbeq]
      exact lookup_of_mem entry hnodup.2 ha

/-- Nothing stands behind a name that does not stand. -/
theorem lookup_eq_none {α : Type} {entry : α → String × Node} {as : List α} {name : String}
    (h : name ∉ as.map fun a => (entry a).1) : (as.map entry).lookup name = none := by
  rw [List.lookup_eq_none_iff]
  intro p hp
  rcases List.mem_map.1 hp with ⟨a, ha, rfl⟩
  have hne : name ≠ (entry a).1 := fun heq => h (List.mem_map.2 ⟨a, ha, heq.symm⟩)
  simpa using hne

/-- A record has fields if its names are known and each stands once. -/
theorem fields_eq_ok_iff {d : Document} {known : List String} {node : Node}
    {entries : List (String × Node)} (hentries : d.entries node = .ok entries) {f : Fields} :
    d.fields known node = .ok f ↔ ¬Exceeds (entries.map (·.1)) known ∧ f = ⟨entries⟩ := by
  have hknown : (entries.all fun entry => known.contains entry.1) = true ↔
      ¬∃ n ∈ entries.map (·.1), n ∉ known := by
    simp [List.all_eq_true]
  rw [Exceeds, not_or, not_not, ← hknown, Document.fields, hentries]
  simp only [bind, Except.bind]
  cases hall : entries.all fun entry => known.contains entry.1 with
  | false =>
    simp only [Bool.not_false, if_true, Bool.false_eq_true, false_and, iff_false]
    intro heq
    cases heq
  | true =>
    by_cases hnodup : (entries.map (·.1)).Nodup
    · simp only [hnodup, decide_true, Bool.not_true, Bool.false_eq_true, if_false, true_and]
      exact ⟨fun heq => (Except.ok.inj heq).symm, fun heq => congrArg Except.ok heq.symm⟩
    · simp only [hnodup, decide_false, Bool.not_false, Bool.not_true, Bool.false_eq_true, if_false,
        if_true, and_false, false_and, iff_false]
      intro heq
      cases heq

/-- A field with a default is read as what it says, or has the default. -/
theorem orElse_field {α : Type} {fields : List Field} {lines : List Line}
    (h : States fields lines) (hnames : (fields.map (·.name)).Nodup) {f : Field}
    (hf : f ∈ fields) {value default : α} {read : Node → Read α}
    (hread : ∀ v, Says v f.content → read v.node = .ok value)
    (hdefault : f.content = f.default → default = value) :
    (⟨lines.map Line.entry⟩ : Fields).orElse f.name default read = .ok value := by
  rw [Fields.orElse, Fields.find?]
  by_cases hline : f.name ∈ lines.map (·.name.label)
  · rcases List.mem_map.1 hline with ⟨l, hl, hname⟩
    rcases h.agrees l hl with ⟨f', hf', hname', hsays⟩
    have hsame : f' = f := List.inj_on_of_nodup_map hnames hf' hf (hname'.trans hname)
    have hlookup : (lines.map Line.entry).lookup l.name.label = some l.value.node :=
      lookup_of_mem Line.entry h.nodup hl
    rw [← hname, hlookup]
    exact hread l.value (hsame ▸ hsays)
  · have hlookup : (lines.map Line.entry).lookup f.name = none := lookup_eq_none hline
    rw [hlookup, hdefault (h.omits f hf hline)]

section

variable {d : Document} {fields : List Field} {lines : List Line} {name : String}

/-- The text of a field is read, whether it is stated or is the default. -/
theorem orElse_text (h : States fields lines) (hnames : (fields.map (·.name)).Nodup)
    {s default : String} (hf : ⟨name, .text s, .text default⟩ ∈ fields) :
    (⟨lines.map Line.entry⟩ : Fields).orElse name default d.text = .ok s :=
  orElse_field h hnames hf (fun _ => text_of_says) fun heq => (Content.text.inj heq).symm

/-- A text that may be absent is read from its line, or from its default. -/
theorem orElse_optionalText (h : States fields lines) (hnames : (fields.map (·.name)).Nodup)
    {s default : Option String} (hf : ⟨name, .ofText s, .ofText default⟩ ∈ fields) :
    (⟨lines.map Line.entry⟩ : Fields).orElse name default d.optionalText = .ok s :=
  orElse_field h hnames hf (fun _ => optionalText_of_says) fun heq =>
    (Content.ofText_injective heq).symm

/-- A number is read from its line, or from its default. -/
theorem orElse_natural (h : States fields lines) (hnames : (fields.map (·.name)).Nodup)
    {n default greatest : Nat} (hn : n ≤ greatest)
    (hf : ⟨name, .number n, .number default⟩ ∈ fields) :
    (⟨lines.map Line.entry⟩ : Fields).orElse name default (d.natural greatest) = .ok n :=
  orElse_field h hnames hf (fun _ hsays => natural_of_says hsays hn) fun heq =>
    (Content.number.inj heq).symm

/-- A flag is read from its line, or from its default. -/
theorem orElse_boolean (h : States fields lines) (hnames : (fields.map (·.name)).Nodup)
    {flag default : Bool} (hf : ⟨name, .flag flag, .flag default⟩ ∈ fields) :
    (⟨lines.map Line.entry⟩ : Fields).orElse name default d.boolean = .ok flag :=
  orElse_field h hnames hf (fun _ => boolean_of_says) fun heq => (Content.flag.inj heq).symm

end

/-! ## Parts of a configuration -/

section

variable {b : Yaml.Block} {version : Nat} {parts : List Part}

/-- The names of a text that states a configuration. -/
theorem Writes.not_exceeds (h : Writes b version parts) :
    ¬Exceeds (b.items.map (·.name.label)) ("version" :: parts.map (·.name)) := by
  rw [Exceeds, not_or, not_not]
  refine ⟨?_, h.nodup⟩
  rintro ⟨n, hn, hunknown⟩
  rcases List.mem_map.1 hn with ⟨i, hi, rfl⟩
  rw [List.mem_cons, not_or] at hunknown
  rcases h.states i hi hunknown.1 with ⟨p, hp, hname, -⟩
  exact hunknown.2 (List.mem_map.2 ⟨p, hp, hname⟩)

/-- The lines of a part state no name beyond its fields. -/
theorem States.not_exceeds {fields : List Field} {lines : List Line} (h : States fields lines) :
    ¬Exceeds (lines.map (·.name.label)) (fields.map (·.name)) := by
  rw [Exceeds, not_or, not_not]
  refine ⟨?_, h.nodup⟩
  rintro ⟨n, hn, hunknown⟩
  rcases List.mem_map.1 hn with ⟨l, hl, rfl⟩
  rcases h.agrees l hl with ⟨f, hf, hname, -⟩
  exact hunknown (List.mem_map.2 ⟨f, hf, hname⟩)

/-- The outermost record of a text that states a configuration. -/
theorem fields_root (h : Writes b version parts) (d : Document) :
    d.fields ("version" :: parts.map (·.name)) b.root = .ok ⟨b.items.map Item.entry⟩ := by
  rw [fields_eq_ok_iff (b.entries_root d), List.map_map]
  exact ⟨h.not_exceeds, rfl⟩

/-- The version that a text states. -/
theorem readVersion_eq (h : Writes b version parts) (hversion : version ≤ greatestWord)
    (d : Document) : readVersion d ⟨b.items.map Item.entry⟩ = .ok version := by
  rcases h.version with ⟨l, hl, hname, hsays⟩
  have hlookup : (b.items.map Item.entry).lookup l.name.label = some l.value.node :=
    lookup_of_mem Item.entry h.nodup hl
  rw [readVersion, Fields.required, Fields.find?, ← hname, hlookup]
  exact natural_of_says hsays hversion

/-- The fields of a part are read from the lines that state them. -/
theorem fieldsOf_part (h : Writes b version parts)
    (hparts : ("version" :: parts.map (·.name)).Nodup) {p : Part} (hp : p ∈ parts)
    (d : Document) : ∃ lines, States p.fields lines ∧
      d.fieldsOf ⟨b.items.map Item.entry⟩ p.name p.names = .ok ⟨lines.map Line.entry⟩ := by
  rw [List.nodup_cons] at hparts
  by_cases hitem : p.name ∈ b.items.map (·.name.label)
  · rcases List.mem_map.1 hitem with ⟨i, hi, hname⟩
    have hother : i.name.label ≠ "version" := fun heq =>
      hparts.1 (heq ▸ hname ▸ List.mem_map_of_mem hp)
    rcases h.states i hi hother with ⟨p', hp', hname', lines, hholds, hstates⟩
    obtain rfl : p' = p :=
      List.inj_on_of_nodup_map hparts.2 hp' hp (hname'.trans hname)
    have hlookup : (b.items.map Item.entry).lookup i.name.label = some i.node :=
      lookup_of_mem Item.entry h.nodup hi
    have hentries : d.entries i.node = .ok (lines.map Line.entry) := by
      cases hholds with
      | @empty l hvalue =>
        rw [Item.node, hvalue]
        rfl
      | record s => exact Yaml.Block.entries_section s d
    refine ⟨lines, hstates, ?_⟩
    rw [Document.fieldsOf, Fields.orElse, Fields.find?, ← hname, hlookup]
    refine (fields_eq_ok_iff hentries).2 ⟨?_, rfl⟩
    rw [List.map_map]
    exact hstates.not_exceeds
  · have hlookup : (b.items.map Item.entry).lookup p.name = none := lookup_eq_none hitem
    refine ⟨[], h.omits p hp hitem, ?_⟩
    rw [Document.fieldsOf, Fields.orElse, Fields.find?, hlookup]
    rfl

/-- Whatever is read from a document has all its parts. -/
def ReadsParts {α : Type} (ofDocument : Document → Read α) (parts : List Part) : Prop :=
  ∀ d c, ofDocument d = .ok c →
    ∃ top, d.fields ("version" :: parts.map (·.name)) d.root = .ok top ∧
      ∀ p ∈ parts, ∃ f, d.fieldsOf top p.name p.names = .ok f

/-- A text with an unknown or a repeated name states nothing. -/
theorem exists_reason_of_oversteps {α : Type} {ofDocument : Document → Read α}
    {check : α → Outcome Unit} (hreads : ReadsParts ofDocument parts)
    (h : Oversteps b parts) :
    ∃ reason, read ofDocument check b.text = .error (.badRequest reason) := by
  rw [read, b.parse_text]
  cases hdocument : ofDocument ⟨b.root, []⟩ with
  | error fault =>
    exact ⟨"invalid yaml: " ++ fault.message, by simp only [bind, Except.bind, hdocument]⟩
  | ok c =>
    exfalso
    rcases hreads _ c hdocument with ⟨top, htop, hparts⟩
    have hentries := b.entries_root ⟨b.root, []⟩
    rcases (fields_eq_ok_iff hentries).1 htop with ⟨hknown, rfl⟩
    rw [List.map_map] at hknown
    rcases h with h | ⟨p, hp, s, hs, hname, h⟩
    · exact hknown h
    · rcases hparts p hp with ⟨f, hf⟩
      rw [Exceeds, not_or, not_not] at hknown
      have hlookup : (b.items.map Item.entry).lookup s.name.label = some s.node :=
        lookup_of_mem Item.entry hknown.2 hs
      rw [Document.fieldsOf, Fields.orElse, Fields.find?, ← hname, hlookup] at hf
      have hlines := ((fields_eq_ok_iff (Yaml.Block.entries_section s _)).1 hf).1
      rw [List.map_map] at hlines
      exact hlines h

end

/-! ## A text for each configuration -/

/-- A content that may stand in a text. -/
def Content.IsPrintable : Content → Prop
  | text s => s.toList.all Yaml.isPrintable = true
  | _ => True

/-- Whether a text may stand as a name without quotes. -/
def isName (s : String) : Bool :=
  match s.toList with
  | c :: r => Yaml.isWord c && c ≠ '-' && r.all Yaml.isWord && r.length < 1024
  | [] => false

/-- There is a name for every word that names a part or a field. -/
theorem exists_name {s : String} (h : isName s = true) : ∃ k : Name, k.label = s := by
  unfold isName at h
  split at h
  · rename_i c r hchars
    simp only [Bool.and_eq_true, decide_eq_true_eq] at h
    obtain ⟨⟨⟨hc, hne⟩, hr⟩, hlength⟩ := h
    refine ⟨.word ⟨c, r, hc, hne, hr⟩ (Nat.succ_le_of_lt hlength), ?_⟩
    rw [← String.ofList_toList (s := s), hchars]
    rfl
  · cases h

/-- The digits of a number are a word. -/
theorem exists_word_natChars (n : Nat) : ∃ w : Word, w.chars = natChars n := by
  have hall : ∀ c ∈ natChars n, Yaml.isWord c = true := by
    intro c hc
    simp [Yaml.isWord, isDigit_of_mem_natChars hc]
  cases hchars : natChars n with
  | nil => exact absurd hchars (natChars_ne_nil n)
  | cons c r =>
    rw [hchars] at hall
    have hdigit : isDigit c = true := isDigit_of_mem_natChars (n := n) (by simp [hchars])
    exact ⟨⟨c, r, hall c (by simp), ne_of_isDigit hdigit (by decide),
      List.all_eq_true.2 fun x hx => hall x (by simp [hx])⟩, rfl⟩

/-- Everything that can be printed can be said. -/
theorem exists_says {content : Content} (h : content.IsPrintable) : ∃ v, Says v content := by
  cases content with
  | nothing => exact ⟨.nothing, .nothing⟩
  | number n =>
    rcases exists_word_natChars n with ⟨w, hw⟩
    exact ⟨.word w, .number hw⟩
  | flag b =>
    cases b with
    | true =>
      exact ⟨.word ⟨'t', ['r', 'u', 'e'], by decide, by decide, by decide⟩, .flag (by decide)⟩
    | false =>
      exact ⟨.word ⟨'f', ['a', 'l', 's', 'e'], by decide, by decide, by decide⟩, .flag (by decide)⟩
  | text s =>
    have hsays := Says.text ⟨s.toList, h⟩
    rw [String.ofList_toList] at hsays
    exact ⟨_, hsays⟩

section

variable {α β : Type} {R : α → β → Prop}

/-- Where each of some things is related to another, so are all of them in a row. -/
theorem exists_forall₂ : ∀ {as : List α}, (∀ a ∈ as, ∃ b, R a b) → ∃ bs, List.Forall₂ R as bs
  | [], _ => ⟨[], .nil⟩
  | a :: as, h => by
    rcases h a List.mem_cons_self with ⟨b, hb⟩
    rcases exists_forall₂ fun a' ha' => h a' (List.mem_cons_of_mem a ha') with ⟨bs, hbs⟩
    exact ⟨b :: bs, .cons hb hbs⟩

/-- Each thing on the right is related to one on the left. -/
theorem exists_mem_of_forall₂ {as : List α} {bs : List β} (h : List.Forall₂ R as bs) {b : β}
    (hb : b ∈ bs) : ∃ a ∈ as, R a b := by
  induction h with
  | nil => cases hb
  | cons hab _ ih =>
    rcases List.mem_cons.1 hb with rfl | hb
    · exact ⟨_, List.mem_cons_self, hab⟩
    · rcases ih hb with ⟨a, ha, hr⟩
      exact ⟨a, List.mem_cons_of_mem _ ha, hr⟩

/-- What related things have in common, two related lists have in common. -/
theorem map_eq_of_forall₂ {γ : Type} {f : α → γ} {g : β → γ} (hR : ∀ a b, R a b → g b = f a)
    {as : List α} {bs : List β} (h : List.Forall₂ R as bs) : bs.map g = as.map f := by
  induction h with
  | nil => rfl
  | cons hab _ ih => rw [List.map_cons, List.map_cons, hR _ _ hab, ih]

end

/-- The end of a line with nothing more on it. -/
def bareEnding : Yaml.Block.Ending := ⟨⟨0, none, by simp⟩, by simp, []⟩

/-- Fields that may stand in a text have lines that state them. -/
theorem exists_states {fields : List Field} (hnodup : (fields.map (·.name)).Nodup)
    (h : ∀ f ∈ fields, isName f.name = true ∧ f.content.IsPrintable) :
    ∃ lines, States fields lines := by
  have hlines : ∀ f ∈ fields, ∃ l : Line, l.name.label = f.name ∧ Says l.value f.content := by
    intro f hf
    rcases exists_name (h f hf).1 with ⟨k, hk⟩
    rcases exists_says (h f hf).2 with ⟨v, hv⟩
    exact ⟨⟨k, 0, v, bareEnding⟩, hk, hv⟩
  rcases exists_forall₂ hlines with ⟨lines, hlines⟩
  have hnames : lines.map (·.name.label) = fields.map (·.name) :=
    map_eq_of_forall₂ (fun _ _ hfl => hfl.1) hlines
  refine ⟨lines, hnames ▸ hnodup, fun l hl => ?_, fun f hf hout => ?_⟩
  · rcases exists_mem_of_forall₂ hlines hl with ⟨f, hf, hname, hsays⟩
    exact ⟨f, hf, hname.symm, hsays⟩
  · rw [hnames] at hout
    exact absurd (List.mem_map_of_mem hf) hout

/-- Lines stand in an item of any name. -/
theorem exists_holds (k : Name) (lines : List Line) :
    ∃ i : Item, i.name = k ∧ Holds i lines := by
  cases lines with
  | nil => exact ⟨.line ⟨k, 0, .nothing, bareEnding⟩, rfl, .empty rfl⟩
  | cons l lines => exact ⟨.record ⟨k, bareEnding, 0, l, lines⟩, rfl, .record ⟨k, _, 0, l, lines⟩⟩

/-- Every configuration of printable texts is stated by some block text. -/
theorem exists_writes (version : Nat) {parts : List Part}
    (hparts : ("version" :: parts.map (·.name)).Nodup)
    (hnames : (parts.map (·.name)).all isName = true)
    (hfields : ∀ p ∈ parts, p.names.all isName = true ∧ p.names.Nodup)
    (hprintable : ∀ p ∈ parts, ∀ f ∈ p.fields, f.content.IsPrintable) :
    ∃ b, Writes b version parts := by
  have hitems : ∀ p ∈ parts, ∃ i : Item, i.name.label = p.name ∧
      ∃ lines, Holds i lines ∧ States p.fields lines := by
    intro p hp
    have hname := List.all_eq_true.1 hnames p.name (List.mem_map_of_mem hp)
    rcases hfields p hp with ⟨hall, hnodup⟩
    have hfield : ∀ f ∈ p.fields, isName f.name = true := fun f hf =>
      List.all_eq_true.1 hall f.name (List.mem_map_of_mem hf)
    rcases exists_states hnodup fun f hf => ⟨hfield f hf, hprintable p hp f hf⟩ with
      ⟨lines, hlines⟩
    rcases exists_name hname with ⟨k, hk⟩
    rcases exists_holds k lines with ⟨i, rfl, hi⟩
    exact ⟨i, hk, lines, hi, hlines⟩
  rcases exists_forall₂ hitems with ⟨items, hitems⟩
  rcases exists_name (s := "version") (by decide) with ⟨k, hk⟩
  rcases exists_word_natChars version with ⟨w, hw⟩
  have hlabels : items.map (·.name.label) = parts.map (·.name) :=
    map_eq_of_forall₂ (fun _ _ hpi => hpi.1) hitems
  refine ⟨⟨[], .line ⟨k, 0, .word w, bareEnding⟩, items⟩, ?_, ⟨_, .head _, hk, .number hw⟩, ?_, ?_⟩
  · rw [Yaml.Block.items, List.map_cons, hlabels]
    exact hk ▸ hparts
  · intro i hi hother
    rcases List.mem_cons.1 hi with rfl | hi
    · exact absurd hk hother
    · rcases exists_mem_of_forall₂ hitems hi with ⟨p, hp, hname, hlines⟩
      exact ⟨p, hp, hname.symm, hlines⟩
  · intro p hp hout
    refine absurd (List.mem_cons_of_mem _ ?_) hout
    rw [hlabels]
    exact List.mem_map_of_mem hp

end MetricRelay.Config
