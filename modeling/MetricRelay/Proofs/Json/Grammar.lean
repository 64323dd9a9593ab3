import MetricRelay.Proofs.Json.Parts
import MetricRelay.Proofs.Json.Spelling

/-!
# Well-formed texts

A value is a word, a number, a string, or a list or an object of parts, with blanks
wherever tokens may have them.  A reader of fields takes every well-formed value; a
value that is skipped over may be as deep as it likes.

Main definitions:

- `Blanks`, `Spaced` and `Member`: the parts of lists and objects.
- `WellFormed`: the texts of values.
- `IsObject`: the texts of objects, with their members.

Main results:

- `WellFormed.skips`: a value is skipped over.
- `WellFormed.reads`: a value is a field.
- `IsObject.whole?_readRecord?`: an object is a record of its members.
-/

namespace MetricRelay.Json

open Utf8 (Bytes encodeChars)

/-! ## Texts -/

/-- Blanks between tokens. -/
structure Blanks where
  chars : List Char
  blank : ∀ c ∈ chars, c = ' ' ∨ c = '\n' ∨ c = '\t' ∨ c = '\r'

/-- No blanks. -/
def Blanks.none : Blanks := ⟨[], fun _ h => by cases h⟩

/-- A value with blanks around it. -/
structure Spaced where
  before : Blanks
  value : List Char
  after : Blanks

def Spaced.chars (p : Spaced) : List Char := p.before.chars ++ (p.value ++ p.after.chars)

/-- A member of an object: the parts of its key, with blanks around it, and its value. -/
structure Member where
  before : Blanks
  key : List StringPart
  after : Blanks
  item : Spaced

namespace Member

def chars (m : Member) : List Char :=
  m.before.chars ++ (quoted m.key ++ (m.after.chars ++ ':' :: m.item.chars))

/-- The text of the value of a member. -/
def value (m : Member) : List Char := m.item.value

end Member

/-- Parts between brackets, with commas between them. -/
def bracketed (b : Bracket) (inner : Blanks) (parts : List (List Char)) : List Char :=
  b.openingChar :: (inner.chars ++ (separated [','] parts ++ [b.closingChar]))

/-- The texts of values. -/
inductive WellFormed : List Char → Prop
  | null : WellFormed "null".toList
  | yes : WellFormed "true".toList
  | no : WellFormed "false".toList
  | number {x : Literal} (h : x.Valid) (negative : Bool) : WellFormed (x.signed negative)
  | string (ps : List StringPart) : WellFormed (quoted ps)
  | list (inner : Blanks) {items : List Spaced} (h : ∀ x ∈ items, WellFormed x.value) :
      WellFormed (bracketed .list inner (items.map Spaced.chars))
  | object (inner : Blanks) {members : List Member} (h : ∀ m ∈ members, WellFormed m.value) :
      WellFormed (bracketed .object inner (members.map Member.chars))

/-- A text is an object with some members, with blanks around it. -/
structure IsObject (members : List Member) (text : List Char) : Prop where
  values : ∀ m ∈ members, WellFormed m.value
  spelled : ∃ before inner after : Blanks,
    text = (Spaced.mk before (bracketed .object inner (members.map Member.chars)) after).chars

/-! ## Blanks -/

section

variable {s r : Bytes}

/-- Blanks are written as blank bytes. -/
theorem Blanks.all_isBlankByte (w : Blanks) : (encodeChars w.chars).all isBlankByte = true := by
  rcases w with ⟨chars, hblank⟩
  induction chars with
  | nil => rfl
  | cons c chars ih =>
    have hrest := ih fun d hd => hblank d (List.mem_cons_of_mem _ hd)
    rcases hblank c List.mem_cons_self with rfl | rfl | rfl | rfl <;>
      rw [encodeChars_cons_of_lt (by decide), List.all_cons, hrest] <;> rfl

/-- A reader that skips blanks skips any number of them. -/
theorem SkipsBlanks.read_blanks {α : Type} {read : Bytes → Option (α × Bytes)}
    (h : SkipsBlanks read) (w : Blanks) (s : Bytes) :
    read (encodeChars w.chars ++ s) = read s :=
  h.append w.all_isBlankByte s

/-- A mark ends what comes before it, with or without blanks in between. -/
theorem Blanks.ends_append (w : Blanks) {t : Token} {m : UInt8} (hm : t.mark? = some m) (r : Bytes) :
    Ends (encodeChars w.chars ++ m :: r) := ends_mark w.all_isBlankByte hm r

/-- A value with blanks around it is written in three parts. -/
theorem Spaced.encodeChars_append (p : Spaced) (r : Bytes) :
    encodeChars p.chars ++ r =
      encodeChars p.before.chars ++ (encodeChars p.value ++ (encodeChars p.after.chars ++ r)) := by
  rw [Spaced.chars, Utf8.encodeChars_append, Utf8.encodeChars_append, List.append_assoc,
    List.append_assoc]

/-- A member is written as its key, a colon and its value. -/
theorem Member.encodeChars_append (m : Member) (r : Bytes) :
    encodeChars m.chars ++ r =
      encodeChars m.before.chars ++ (encodeChars (quoted m.key) ++
        (encodeChars m.after.chars ++ byte ':' :: (encodeChars m.item.chars ++ r))) := by
  rw [Member.chars, Utf8.encodeChars_append, Utf8.encodeChars_append, Utf8.encodeChars_append,
    encodeChars_cons_of_lt (by decide)]
  simp only [List.append_assoc, List.cons_append]

/-- The text of some parts: the brackets, and what is between them. -/
theorem encodeChars_bracketed_append (b : Bracket) (inner : Blanks) (parts : List (List Char))
    (r : Bytes) :
    encodeChars (bracketed b inner parts) ++ r =
      byte b.openingChar :: (encodeChars inner.chars ++
        (encodeChars (separated [','] parts) ++ byte b.closingChar :: r)) := by
  have hclosing : encodeChars [b.closingChar] = [byte b.closingChar] := by
    cases b <;> rfl
  rw [bracketed, encodeChars_openingChar, Utf8.encodeChars_append, Utf8.encodeChars_append,
    hclosing]
  simp only [List.cons_append, List.append_assoc, List.nil_append]

end

/-! ## Values that are skipped over -/

namespace Skim

/-- What is left after some bytes, from a place or from the end. -/
def go : Skim → Bytes → Option Bytes
  | within next brackets, s => skim? next brackets s
  | done, s => some s

/-- Where a value may start. -/
def Next.StartsValue (next : Next) : Prop := next = .value ∨ next = .firstItem

/-- Where the first part of a bracket stands. -/
def first : Bracket → Next
  | .list => .firstItem
  | .object => .firstKey

/-- Where any other part of a bracket stands. -/
def later : Bracket → Next
  | .list => .value
  | .object => .key

end Skim

section

variable {next : Skim.Next} {brackets : List Bracket} {b : Bracket} {t : Token} {after : Skim}
  {s r : Bytes} {parts : List (List Char)}

/-- One token takes skipping over to the next place, or to the end. -/
theorem skim?_of_step (htoken : token? s = some (t, r))
    (hstep : Skim.step next brackets t = some after) : skim? next brackets s = after.go r := by
  cases after with
  | within next' brackets' => exact skim?_within htoken hstep
  | done => exact skim?_done htoken hstep

/-- Blanks make no difference to what is skipped over. -/
theorem skim?_blanks (w : Blanks) :
    skim? next brackets (encodeChars w.chars ++ s) = skim? next brackets s := by
  have htoken := skipsBlanks_token?.read_blanks w s
  rw [skim?, skim?]
  split <;> rename_i h <;> rw [htoken] at h <;> rw [h]

theorem Skim.step_scalar (hnext : next.StartsValue) (x : Scalar) :
    Skim.step next brackets (.scalar x) = some (Skim.afterValue brackets) := by
  rcases hnext with rfl | rfl <;> rfl

theorem Skim.step_opening (hnext : next.StartsValue) (b : Bracket) :
    Skim.step next brackets (.opening b) = some (.within (first b) (b :: brackets)) := by
  rcases hnext with rfl | rfl <;> cases b <;> rfl

theorem Skim.step_comma (b : Bracket) (brackets : List Bracket) :
    Skim.step .rest (b :: brackets) .comma = some (.within (later b) (b :: brackets)) := by
  cases b <;> rfl

/-- A bracket is closed after a part of it, or at once. -/
theorem Skim.step_closing (hnext : next = .rest ∨ next = first b) :
    Skim.step next (b :: brackets) (.closing b) = some (Skim.afterValue brackets) := by
  rcases hnext with rfl | rfl
  · exact if_pos rfl
  · cases b <;> rfl

/-- A text is skipped over as a value is, wherever it stands. -/
def Skips (text : List Char) : Prop :=
  ∀ next brackets r, Skim.Next.StartsValue next → Ends r →
    skim? next brackets (encodeChars text ++ r) = (Skim.afterValue brackets).go r

/-- A text is skipped over as a part of a bracket is. -/
def SkipsPart (b : Bracket) (text : List Char) : Prop :=
  ∀ next brackets r, next = Skim.first b ∨ next = Skim.later b → Ends r →
    skim? next (b :: brackets) (encodeChars text ++ r) = skim? .rest (b :: brackets) r

/-- What is read as a scalar is skipped over as a value. -/
theorem skips_of_reads {text : List Char} {x : Scalar} (h : Reads token? text (.scalar x)) :
    Skips text :=
  fun _ _ r hnext hr => skim?_of_step (h r hr) (Skim.step_scalar hnext x)

/-- A value with blanks around it. -/
theorem Skips.spaced {p : Spaced} (h : Skips p.value) (hnext : next.StartsValue) (hr : Ends r) :
    skim? next (b :: brackets) (encodeChars p.chars ++ r) = skim? .rest (b :: brackets) r := by
  rw [p.encodeChars_append, skim?_blanks, h next _ _ hnext (ends_blanks p.after.all_isBlankByte hr)]
  exact skim?_blanks p.after

theorem Skips.item {p : Spaced} (h : Skips p.value) : SkipsPart .list p.chars :=
  fun _ _ _ hnext hr => h.spaced hnext.symm hr

/-- A member is skipped over if its value is. -/
theorem Skips.member {m : Member} (h : Skips m.value) : SkipsPart .object m.chars := by
  intro next brackets r hnext hr
  have hkey : Skim.step next (.object :: brackets) (.scalar (.text (textOf? m.key))) =
      some (.within .colon (.object :: brackets)) := by
    rcases hnext with rfl | rfl <;> rfl
  have hcolon : Skim.step .colon (.object :: brackets) .colon =
      some (.within .value (.object :: brackets)) := rfl
  have hends := m.after.ends_append (t := .colon) rfl (encodeChars m.item.chars ++ r)
  rw [m.encodeChars_append, skim?_blanks, skim?_of_step (reads_quoted m.key _ hends) hkey,
    Skim.go, skim?_blanks, skim?_of_step (token?_colon _) hcolon, Skim.go]
  exact Skips.spaced (p := m.item) h (.inl rfl) hr

/-- Parts up to the closing bracket. -/
theorem skim?_separated (h : ∀ part ∈ parts, SkipsPart b part) (hne : parts ≠ [])
    (hnext : next = Skim.first b ∨ next = Skim.later b) (r : Bytes) :
    skim? next (b :: brackets) (encodeChars (separated [','] parts) ++ byte b.closingChar :: r) =
      (Skim.afterValue brackets).go r := by
  induction parts generalizing next with
  | nil => exact absurd rfl hne
  | cons part parts ih =>
    have hpart := h part List.mem_cons_self
    have hclosing : Ends (byte b.closingChar :: r) := ends_closing isBlank_nil b r
    cases parts with
    | nil =>
      rw [separated, hpart next brackets _ hnext hclosing]
      exact skim?_of_step (token?_closing b r) (Skim.step_closing (.inl rfl))
    | cons part' parts =>
      rw [encodeChars_separated_cons, hpart next brackets _ hnext (ends_cons rfl _),
        skim?_of_step (token?_comma _) (Skim.step_comma b brackets), Skim.go]
      exact ih (fun p hp => h p (List.mem_cons_of_mem _ hp)) (List.cons_ne_nil _ _) (.inr rfl)

/-- Parts after the opening bracket, if there are any. -/
theorem skim?_parts (h : ∀ part ∈ parts, SkipsPart b part) (inner : Blanks) (r : Bytes) :
    skim? (Skim.first b) (b :: brackets) (encodeChars inner.chars ++
        (encodeChars (separated [','] parts) ++ byte b.closingChar :: r)) =
      (Skim.afterValue brackets).go r := by
  rw [skim?_blanks]
  cases parts with
  | nil => exact skim?_of_step (token?_closing b r) (Skim.step_closing (.inr rfl))
  | cons part parts => exact skim?_separated h (List.cons_ne_nil _ _) (.inl rfl) r

/-- A bracket is skipped over if its parts are. -/
theorem skips_bracketed (h : ∀ part ∈ parts, SkipsPart b part) (inner : Blanks) :
    Skips (bracketed b inner parts) := by
  intro next brackets r hnext _
  rw [encodeChars_bracketed_append,
    skim?_of_step (token?_opening b _) (Skim.step_opening hnext b), Skim.go]
  exact skim?_parts h inner r

end

/-! ## Fields -/

namespace WellFormed

variable {text : List Char}

/-- The items of a list are its parts. -/
theorem skipsPart_items {items : List Spaced} (h : ∀ x ∈ items, Skips x.value) :
    ∀ part ∈ items.map Spaced.chars, SkipsPart .list part := by
  intro part hpart
  rcases List.mem_map.1 hpart with ⟨x, hx, rfl⟩
  exact (h x hx).item

/-- The members of an object are its parts. -/
theorem skipsPart_members {members : List Member} (h : ∀ m ∈ members, Skips m.value) :
    ∀ part ∈ members.map Member.chars, SkipsPart .object part := by
  intro part hpart
  rcases List.mem_map.1 hpart with ⟨m, hm, rfl⟩
  exact (h m hm).member

/-- A value is skipped over, however deep it is. -/
theorem skips (h : WellFormed text) : Skips text := by
  induction h with
  | null => exact skips_of_reads reads_null
  | yes => exact skips_of_reads reads_true
  | no => exact skips_of_reads reads_false
  | number h negative => exact skips_of_reads (reads_literal h negative)
  | string ps => exact skips_of_reads (reads_quoted ps)
  | list inner _ ih => exact skips_bracketed (skipsPart_items ih) inner
  | object inner _ ih => exact skips_bracketed (skipsPart_members ih) inner

end WellFormed

/-- The field that a text is read as. -/
def fieldOf (text : List Char) : Field :=
  ((readField? (encodeChars text)).map Prod.fst).getD .compound

/-- A text that is read as a field, whatever follows, stands for that field. -/
theorem Reads.fieldOf_eq {text : List Char} {f : Field} (h : Reads readField? text f) :
    fieldOf text = f := by
  have hread := h [] ends_nil
  rw [List.append_nil] at hread
  rw [fieldOf, hread]
  rfl

/-- A bracket is read as a compound field. -/
theorem reads_bracketed {b : Bracket} {parts : List (List Char)}
    (h : ∀ part ∈ parts, SkipsPart b part) (inner : Blanks) :
    Reads readField? (bracketed b inner parts) .compound := by
  intro r _
  have hskim : skim? (Skim.first b) [b] (encodeChars inner.chars ++
      (encodeChars (separated [','] parts) ++ byte b.closingChar :: r)) = some r :=
    skim?_parts h inner r
  have hopening := token?_opening b (encodeChars inner.chars ++
    (encodeChars (separated [','] parts) ++ byte b.closingChar :: r))
  rw [encodeChars_bracketed_append, readField?, hopening]
  cases b <;> exact congrArg (Option.map _) hskim

/-- A value is a field. -/
theorem WellFormed.reads {text : List Char} (h : WellFormed text) :
    Reads readField? text (fieldOf text) := by
  have hexists : ∃ f, Reads readField? text f := by
    cases h with
    | null => exact ⟨_, reads_null.field⟩
    | yes => exact ⟨_, reads_true.field⟩
    | no => exact ⟨_, reads_false.field⟩
    | number h negative => exact ⟨_, (reads_literal h negative).field⟩
    | string ps => exact ⟨_, (reads_quoted ps).field⟩
    | list inner h => exact ⟨_, reads_bracketed (skipsPart_items fun x hx => (h x hx).skips) inner⟩
    | object inner h =>
      exact ⟨_, reads_bracketed (skipsPart_members fun m hm => (h m hm).skips) inner⟩
  rcases hexists with ⟨f, hf⟩
  rw [hf.fieldOf_eq]
  exact hf

/-! ## Objects -/

/-- The name and the field of a member; there are none if the key is no text. -/
def Member.named? (m : Member) : Option (String × Field) :=
  (textOf? m.key).map (·, fieldOf m.value)

section

variable {m : Member} {ms : List Member} {r : Bytes}

/-- A member is read up to the blanks behind it. -/
theorem Member.readNamedField?_chars (h : WellFormed m.value) (hr : Ends r) :
    readNamedField? (encodeChars m.chars ++ r) =
      m.named?.map (·, encodeChars m.item.after.chars ++ r) := by
  have hends := m.after.ends_append (t := .colon) rfl (encodeChars m.item.chars ++ r)
  have hvalue : readField? (encodeChars m.item.chars ++ r) =
      some (fieldOf m.value, encodeChars m.item.after.chars ++ r) := by
    rw [m.item.encodeChars_append, skipsBlanks_readField?.read_blanks]
    exact h.reads _ (ends_blanks m.item.after.all_isBlankByte hr)
  rw [m.encodeChars_append, skipsBlanks_readNamedField?.read_blanks, readNamedField?,
    reads_quoted m.key _ hends, Member.named?]
  cases textOf? m.key with
  | none => rfl
  | some key => simp only [skipsBlanks_token?.read_blanks, token?_colon, hvalue, Option.map_some]

theorem readMoreItems?_none {α : Type} {read : Bytes → Option (α × Bytes)} {b : Bracket} {s : Bytes}
    (h : read s = none) : readMoreItems? read b s = none := by
  rw [readMoreItems?, h]

/-- After an item and a comma the other items are read. -/
theorem readMoreItems?_rest {α : Type} {read : Bytes → Option (α × Bytes)} {b : Bracket}
    {s t u : Bytes} {x : α} (hread : read s = some (x, t)) (htoken : token? t = some (.comma, u))
    (hlength : u.length < s.length) :
    readMoreItems? read b s = (readMoreItems? read b u).map fun y => (x :: y.1, y.2) := by
  rw [readMoreItems?, hread]
  simp only [htoken]
  rw [dif_pos hlength]

/-- The members of an object, if all keys are texts. -/
theorem readMoreItems?_members (h : ∀ m ∈ ms, WellFormed m.value) (hne : ms ≠ []) (inner : Blanks)
    (r : Bytes) :
    readMoreItems? readNamedField? .object (encodeChars inner.chars ++
        (encodeChars (separated [','] (ms.map Member.chars)) ++ byte '\x7d' :: r)) =
      (ms.mapM Member.named?).map (·, r) := by
  have hread {m : Member} (hm : WellFormed m.value) (inner : Blanks) {s : Bytes} (hs : Ends s) :
      readNamedField? (encodeChars inner.chars ++ (encodeChars m.chars ++ s)) =
        m.named?.map (·, encodeChars m.item.after.chars ++ s) := by
    rw [skipsBlanks_readNamedField?.read_blanks]
    exact Member.readNamedField?_chars hm hs
  induction ms generalizing inner with
  | nil => exact absurd rfl hne
  | cons m ms ih =>
    have hm := h m List.mem_cons_self
    cases ms with
    | nil =>
      have hlast := hread hm inner (ends_cons rfl r : Ends (byte '\x7d' :: r))
      rw [List.map_singleton, separated, List.mapM_cons, List.mapM_nil]
      cases hnamed : m.named? with
      | none =>
        rw [hnamed] at hlast
        exact readMoreItems?_none hlast
      | some x =>
        rw [hnamed] at hlast
        refine readMoreItems?_last hlast ?_
        rw [skipsBlanks_token?.read_blanks]
        exact token?_closing .object r
    | cons m' ms =>
      have hrest := ih (fun x hx => h x (List.mem_cons_of_mem _ hx)) (List.cons_ne_nil _ _) .none
      rw [List.map_cons] at hrest
      rw [List.map_cons, List.map_cons, encodeChars_separated_cons, List.mapM_cons]
      generalize encodeChars (separated [','] (m'.chars :: ms.map Member.chars)) ++
        byte '\x7d' :: r = u at hrest
      have hfirst := hread hm inner (ends_cons rfl u : Ends (byte ',' :: u))
      cases hnamed : m.named? with
      | none =>
        rw [hnamed] at hfirst
        exact readMoreItems?_none hfirst
      | some x =>
        rw [hnamed] at hfirst
        have hcomma : token? (encodeChars m.item.after.chars ++ byte ',' :: u) =
            some (.comma, u) := by
          rw [skipsBlanks_token?.read_blanks]
          exact token?_comma u
        have hlength : u.length <
            (encodeChars inner.chars ++ (encodeChars m.chars ++ byte ',' :: u)).length := by
          rw [List.length_append, List.length_append, List.length_cons]
          omega
        have hthere : readMoreItems? readNamedField? .object u =
            ((m' :: ms).mapM Member.named?).map (·, r) := hrest
        rw [readMoreItems?_rest hfirst hcomma hlength, hthere]
        cases (m' :: ms).mapM Member.named? <;> rfl

/-- A member starts with its key, also as the first of some. -/
theorem exists_token?_members (m : Member) (parts : List (List Char)) (r : Bytes) :
    ∃ s, token? (encodeChars (separated [','] (m.chars :: parts)) ++ r) =
      some (.scalar (.text (textOf? m.key)), s) := by
  have hkey (u : Bytes) : ∃ s, token? (encodeChars m.chars ++ u) =
      some (.scalar (.text (textOf? m.key)), s) := by
    rw [m.encodeChars_append, skipsBlanks_token?.read_blanks]
    exact ⟨_, reads_quoted m.key _ (m.after.ends_append (t := .colon) rfl _)⟩
  cases parts with
  | nil => exact hkey r
  | cons part parts =>
    rw [encodeChars_separated_cons]
    exact hkey _

/-- The members between the brackets of an object. -/
theorem readItems?_members (h : ∀ m ∈ ms, WellFormed m.value) (inner : Blanks) (r : Bytes) :
    readItems? readNamedField? .object (encodeChars inner.chars ++
        (encodeChars (separated [','] (ms.map Member.chars)) ++ byte '\x7d' :: r)) =
      (ms.mapM Member.named?).map (·, r) := by
  cases ms with
  | nil =>
    refine readItems?_of_closing ?_
    rw [skipsBlanks_token?.read_blanks]
    exact token?_closing .object r
  | cons m ms =>
    rcases exists_token?_members m (ms.map Member.chars) (byte '\x7d' :: r) with ⟨s, hkey⟩
    rw [readItems?, skipsBlanks_token?.read_blanks, List.map_cons, hkey]
    exact readMoreItems?_members h (List.cons_ne_nil m ms) inner r

/-- An object is a record of its members, if all keys are texts. -/
theorem IsObject.whole?_readRecord? {text : List Char} (h : IsObject ms text) :
    whole? (readRecord? (encodeChars text)) = (ms.mapM Member.named?).map .named := by
  rcases h with ⟨hvalues, before, inner, after, rfl⟩
  have hopening (s : Bytes) : token? (byte '\x7b' :: s) = some (.opening .object, s) :=
    token?_opening .object s
  have htext := Spaced.encodeChars_append ⟨before,
    bracketed .object inner (ms.map Member.chars), after⟩ []
  rw [List.append_nil, List.append_nil] at htext
  rw [htext, skipsBlanks_readRecord?.read_blanks, encodeChars_bracketed_append, readRecord?]
  simp only [Bracket.openingChar, Bracket.closingChar, hopening,
    readItems?_members hvalues inner (encodeChars after.chars)]
  cases ms.mapM Member.named? with
  | none => rfl
  | some fields => exact if_pos after.all_isBlankByte

end

end MetricRelay.Json
