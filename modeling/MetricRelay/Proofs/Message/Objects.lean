import MetricRelay.Proofs.Json.Grammar
import MetricRelay.Proofs.Message.Numerals
import MetricRelay.Proofs.Number.Nearest

/-!
# What an object says

Of an object only the fields of a message matter, and of these only what they denote: a
text, an integer, a number, or nothing.  How an object is spelled and ordered, and what
else is in it, makes no difference; a field that is there twice does.

Main definitions:

- `Json.under`: the values under one key.
- `Denotes`: the message that the members of an object denote.
- `Acceptable`: the objects that denote one.

Main results:

- `named?_of_mapM`: the fields of a record are the values under their keys.
- `Acceptable.exists_denotes`: an acceptable object denotes a message.
- `decodeOne_object`: an object is decoded as the message that it denotes, and refused if
  a field is repeated or missing.
-/

namespace MetricRelay

open Utf8 (Bytes encodeChars)
open Json (Spaced Member StringPart IsObject WellFormed Field Record Scalar quoted textOf? fieldOf)

/-! ## Values under a key -/

namespace Json

/-- The values of the members with one key. -/
def under (ms : List Member) (key : String) : List (List Char) :=
  (ms.filter fun m => textOf? m.key = some key).map Member.value

/-- The keys of an object are texts. -/
def KeysAreTexts (ms : List Member) : Prop := ∀ m ∈ ms, ∃ key, textOf? m.key = some key

/-- The only one of some fields, or none if there are none. -/
def single? : List Field → Option (Option Field)
  | [] => some none
  | [f] => some (some f)
  | _ => none

section

variable {ms : List Member} {fields : List (String × Field)}

/-- Where all keys are texts each member is a named field. -/
theorem KeysAreTexts.exists_mapM (h : KeysAreTexts ms) :
    ∃ fields, ms.mapM Member.named? = some fields := by
  induction ms with
  | nil => exact ⟨[], rfl⟩
  | cons m ms ih =>
    rcases h m List.mem_cons_self with ⟨key, hkey⟩
    rcases ih fun x hx => h x (List.mem_cons_of_mem _ hx) with ⟨fields, hfields⟩
    refine ⟨(key, fieldOf m.value) :: fields, ?_⟩
    rw [List.mapM_cons, Member.named?, hkey, hfields]
    rfl

/-- The fields of a record are the values under their keys. -/
theorem named?_of_mapM (h : ms.mapM Member.named? = some fields) (key : String) :
    (Record.named fields).named? key = (under ms key).map fieldOf := by
  induction ms generalizing fields with
  | nil =>
    cases h
    rfl
  | cons m ms ih =>
    rw [List.mapM_cons, Member.named?] at h
    cases hkey : textOf? m.key with
    | none =>
      rw [hkey] at h
      cases h
    | some name =>
      cases hrest : ms.mapM Member.named? with
      | none =>
        rw [hkey, hrest] at h
        cases h
      | some rest =>
        rw [hkey, hrest] at h
        cases h
        have htail := ih hrest
        simp only [Record.named?, under] at htail ⊢
        by_cases hname : name = key
        · simp [hkey, hname, htail]
        · simp [hkey, hname, htail]

/-- A record has the fields of which there is at most one. -/
theorem fields?_named (names : List String) (least : Nat) :
    (Record.named fields).fields? names least =
      names.mapM fun key => single? ((Record.named fields).named? key) := by
  simp only [Record.fields?]
  rfl

end

end Json

open Json (under)

namespace Message

/-! ## Denotations -/

/-- A string that stands for a text. -/
def IsText (s : String) (v : List Char) : Prop := ∃ ps, v = quoted ps ∧ textOf? ps = some s

/-- An integer literal other than a negative zero. -/
structure IsInteger (x : Literal) (negative : Bool) (v : List Char) : Prop where
  spelled : v = x.signed negative
  valid : x.Valid
  fraction : x.fraction = none
  exponent : x.exponent = none
  ne_zero : v ≠ ['-', '0']

/-- A number literal that is not too large for a double. -/
structure IsNumber (x : Literal) (negative : Bool) (v : List Char) : Prop where
  spelled : v = x.signed negative
  valid : x.Valid
  small : ¬ Binary64.Overflows x.digits x.power

/-- A literal that stands for a total. -/
def IsTotal (n : Count) (v : List Char) : Prop :=
  ∃ x negative, IsInteger x negative v ∧ n.val = x.integer negative

/-- A literal that stands for a number, and the double that is nearest to it. -/
def IsReading (y : Binary64) (v : List Char) : Prop :=
  ∃ x negative rank, IsNumber x negative v ∧ y = .finite negative rank ∧
    Binary64.IsNearest (x.digits * 10 ^ x.power) rank

/-- The word for nothing. -/
def nothing : List Char := "null".toList

/-- A field that may be missing or null, and otherwise is there once. -/
def AtMostOnce (p : List Char → Prop) (vs : List (List Char)) : Prop :=
  vs = [] ∨ vs = [nothing] ∨ ∃ v, vs = [v] ∧ p v

/-- What such a field stands for: nothing if it is missing or null. -/
def Holds {α : Type} (stands : α → List Char → Prop) (o : Option α) (vs : List (List Char)) :
    Prop :=
  match o with
  | none => vs = [] ∨ vs = [nothing]
  | some a => ∃ v, vs = [v] ∧ stands a v

/-- The message that the members of an object denote. -/
structure Denotes (ms : List Member) (m : Message) : Prop where
  keys : Json.KeysAreTexts ms
  id : ∃ v, under ms "id" = [v] ∧ IsText m.id v
  kind : ∃ v, under ms "type" = [v] ∧ IsText m.kind v
  delta : Holds IsTotal m.delta (under ms "delta")
  value : Holds IsReading m.value (under ms "value")
  hash : Holds IsText m.hash (under ms "hash")

/-- The members of an object are acceptable: the fields of a message are of their types
and none is there twice. -/
structure Acceptable (ms : List Member) : Prop where
  keys : Json.KeysAreTexts ms
  id : ∃ v, under ms "id" = [v] ∧ ∃ s, IsText s v
  kind : ∃ v, under ms "type" = [v] ∧ ∃ s, IsText s v
  delta : AtMostOnce (fun v => ∃ x negative, IsInteger x negative v ∧
    Count.least ≤ x.integer negative ∧ x.integer negative ≤ Count.greatest) (under ms "delta")
  value : AtMostOnce (fun v => ∃ x negative, IsNumber x negative v) (under ms "value")
  hash : AtMostOnce (fun v => ∃ s, IsText s v) (under ms "hash")

section

variable {ms : List Member} {m : Message} {text v : List Char}

/-- A member that may stand there stands for something, or for nothing. -/
theorem AtMostOnce.exists_holds {α : Type} {p : List Char → Prop} {stands : α → List Char → Prop}
    {vs : List (List Char)} (h : AtMostOnce p vs) (hstands : ∀ v, p v → ∃ a, stands a v) :
    ∃ o, Holds stands o vs := by
  rcases h with hmissing | hnull | ⟨v, hv, hp⟩
  · exact ⟨none, .inl hmissing⟩
  · exact ⟨none, .inr hnull⟩
  · rcases hstands v hp with ⟨a, ha⟩
    exact ⟨some a, v, hv, ha⟩

/-- For each number that is not too large there is a nearest double. -/
theorem IsNumber.exists_isReading {x : Literal} {negative : Bool} (h : IsNumber x negative v) :
    ∃ y, IsReading y v := by
  rcases Binary64.exists_isNearest_ofDecimal negative h.small with ⟨rank, -, hrank⟩
  exact ⟨_, x, negative, rank, h, rfl, hrank⟩

/-- An acceptable object denotes a message. -/
theorem Acceptable.exists_denotes (h : Acceptable ms) : ∃ m, Denotes ms m := by
  rcases h.id with ⟨v, hid, id, hv⟩
  rcases h.kind with ⟨w, hkind, kind, hw⟩
  have htotal : ∀ v, (∃ x negative, IsInteger x negative v ∧
      Count.least ≤ x.integer negative ∧ x.integer negative ≤ Count.greatest) →
      ∃ n, IsTotal n v := by
    rintro v ⟨x, negative, hx, hleast, hgreatest⟩
    exact ⟨⟨_, hleast, hgreatest⟩, x, negative, hx, rfl⟩
  rcases h.delta.exists_holds htotal with ⟨delta, hdelta⟩
  rcases h.value.exists_holds fun v ⟨x, negative, hx⟩ => hx.exists_isReading with ⟨value, hvalue⟩
  rcases h.hash.exists_holds fun _ hv => hv with ⟨hash, hhash⟩
  exact ⟨⟨id, kind, delta, value, hash⟩, h.keys, ⟨v, hid, hv⟩, ⟨w, hkind, hw⟩, hdelta, hvalue,
    hhash⟩

/-! ## Fields -/

/-- A text is read as a scalar with a meaning; the word for nothing is read otherwise. -/
def ReadsAs {α : Type} (read : Scalar → Option α) (a : α) (v : List Char) : Prop :=
  ∃ x, fieldOf v = .scalar x ∧ x ≠ .null ∧ read x = some a

theorem fieldOf_nothing : fieldOf nothing = .scalar .null := Json.reads_null.field.fieldOf_eq

/-- A text is a scalar with the text. -/
theorem IsText.fieldOf_eq {s : String} (h : IsText s v) : fieldOf v = .scalar (.text (some s)) := by
  rcases h with ⟨ps, rfl, htext⟩
  rw [(Json.reads_quoted ps).field.fieldOf_eq, htext]

theorem fieldOf_signed {x : Literal} (h : x.Valid) (negative : Bool) :
    fieldOf (x.signed negative) = .scalar (.number (x.signed negative)) :=
  (Json.reads_literal h negative).field.fieldOf_eq

theorem IsText.readsAs {s : String} (h : IsText s v) : ReadsAs text? s v :=
  ⟨_, h.fieldOf_eq, by simp, rfl⟩

/-- An integer in the range is read as a total. -/
theorem IsTotal.readsAs {n : Count} (h : IsTotal n v) : ReadsAs count? n v := by
  rcases h with ⟨x, negative, ⟨rfl, hvalid, hfraction, hexponent, hzero⟩, hn⟩
  refine ⟨_, fieldOf_signed hvalid negative, by simp, ?_⟩
  rw [hvalid.count?_signed hfraction hexponent hzero, ← hn, Count.ofInt?,
    dif_pos ⟨n.least_le, n.le_greatest⟩]

/-- A number is read as the double nearest to it. -/
theorem IsReading.readsAs {y : Binary64} (h : IsReading y v) : ReadsAs double? y v := by
  rcases h with ⟨x, negative, rank, ⟨rfl, hvalid, hsmall⟩, rfl, hrank⟩
  refine ⟨_, fieldOf_signed hvalid negative, by simp, ?_⟩
  rw [hvalid.double?_signed, if_neg hsmall, (Binary64.ofDecimal_eq_iff_isNearest negative hsmall).2 hrank]

/-- An optional field is read as what it stands for. -/
theorem Holds.optional? {α : Type} {stands : α → List Char → Prop} {read : Scalar → Option α}
    {o : Option α} {vs : List (List Char)} (h : Holds stands o vs)
    (hreads : ∀ a v, stands a v → ReadsAs read a v) :
    ∃ f, Json.single? (vs.map fieldOf) = some f ∧ Field.optional? read f = some o := by
  cases o with
  | none =>
    rcases h with rfl | rfl
    · exact ⟨none, rfl, rfl⟩
    · refine ⟨some (.scalar .null), ?_, rfl⟩
      rw [List.map_singleton, fieldOf_nothing]
      rfl
  | some a =>
    rcases h with ⟨v, rfl, hv⟩
    rcases hreads a v hv with ⟨x, hfield, hnull, hread⟩
    refine ⟨some (.scalar x), ?_, ?_⟩
    · rw [List.map_singleton, hfield]
      rfl
    · cases x with
      | null => exact absurd rfl hnull
      | boolean b => simp [Field.optional?, hread]
      | number literal => simp [Field.optional?, hread]
      | text content => simp [Field.optional?, hread]

/-- A required field is read as its text. -/
theorem single?_of_isText {s : String} {vs : List (List Char)} (h : ∃ v, vs = [v] ∧ IsText s v) :
    Json.single? (vs.map fieldOf) = some (some (.scalar (.text (some s)))) := by
  rcases h with ⟨v, rfl, hv⟩
  rw [List.map_singleton, hv.fieldOf_eq]
  rfl

/-! ## Objects -/

/-- An object is decoded by its record, if all keys are texts. -/
theorem decodeOne_eq (h : IsObject ms text) :
    decodeOne (encodeChars text) =
      match (ms.mapM Member.named?).bind fun fields => ofRecord? (.named fields) with
      | some m => .ok m
      | none => .error notMessage := by
  rw [decodeOne, whole?_read?, h.whole?_readRecord?]
  cases ms.mapM Member.named? with
  | none => rfl
  | some fields => rfl

/-- A record with the fields that a message is made of. -/
theorem ofRecord?_named (fields : List (String × Field)) :
    ofRecord? (.named fields) = do
      let id ← Json.single? ((Record.named fields).named? "id")
      let kind ← Json.single? ((Record.named fields).named? "type")
      let delta ← Json.single? ((Record.named fields).named? "delta")
      let value ← Json.single? ((Record.named fields).named? "value")
      let hash ← Json.single? ((Record.named fields).named? "hash")
      return { id := ← Field.text? id
               kind := ← Field.text? kind
               delta := ← Field.optional? count? delta
               value := ← Field.optional? double? value
               hash := ← Field.optional? text? hash } := by
  simp [ofRecord?, Json.fields?_named, Option.bind_assoc]

/-- An object is decoded as the message that it denotes. -/
theorem Denotes.decodeOne_eq (hdenotes : Denotes ms m) (h : IsObject ms text) :
    decodeOne (encodeChars text) = .ok m := by
  rcases hdenotes.keys.exists_mapM with ⟨fields, hfields⟩
  rcases hdenotes.delta.optional? fun _ _ => IsTotal.readsAs with ⟨delta, hdelta, hcount⟩
  rcases hdenotes.value.optional? fun _ _ => IsReading.readsAs with ⟨value, hvalue, hdouble⟩
  rcases hdenotes.hash.optional? fun _ _ => IsText.readsAs with ⟨hash, hhash, htext⟩
  have hid := single?_of_isText hdenotes.id
  have hkind := single?_of_isText hdenotes.kind
  have hrecord : ofRecord? (.named fields) = some m := by
    simp only [ofRecord?_named, Json.named?_of_mapM hfields, hid, hkind, hdelta, hvalue, hhash,
      Option.bind_eq_bind, Option.bind_some, Field.text?, hcount, hdouble, htext, Option.pure_def]
  rw [Message.decodeOne_eq h, hfields, Option.bind_some, hrecord]

/-- A field is there twice, or one that a message needs is missing. -/
def Unfit (ms : List Member) : Prop :=
  (∃ key ∈ ["id", "type", "delta", "value", "hash"], 2 ≤ (under ms key).length) ∨
    under ms "id" = [] ∨ under ms "type" = []

/-- Two fields of one name are not a single one. -/
theorem single?_of_two {fs : List Field} (h : 2 ≤ fs.length) : Json.single? fs = none := by
  match fs, h with
  | _ :: _ :: _, _ => rfl

/-- An object with a field twice, or without one that a message needs, is refused. -/
theorem Unfit.decodeOne_eq (hunfit : Unfit ms) (h : IsObject ms text) :
    decodeOne (encodeChars text) = .error notMessage := by
  rw [Message.decodeOne_eq h]
  cases hfields : ms.mapM Member.named? with
  | none => rfl
  | some fields =>
    have hrecord : ofRecord? (.named fields) = none := by
      have htwice {key : String} (hkey : 2 ≤ (under ms key).length) :
          Json.single? ((under ms key).map fieldOf) = none :=
        single?_of_two (by rwa [List.length_map])
      simp only [ofRecord?_named, Json.named?_of_mapM hfields]
      rcases hunfit with ⟨key, hmem, hkey⟩ | hmissing | hmissing
      · have hnone := htwice hkey
        simp only [List.mem_cons, List.not_mem_nil, or_false] at hmem
        rcases hmem with rfl | rfl | rfl | rfl | rfl <;> simp [hnone]
      · simp [hmissing, Json.single?, Field.text?]
      · simp [hmissing, Json.single?, Field.text?]
    rw [Option.bind_some, hrecord]

/-- An object is decoded as the message that it denotes, whatever the order of its
members, their spelling and the blanks between them, and whatever else is in it.  One
with a field twice, or without one that a message needs, is refused. -/
theorem decodeOne_object (h : IsObject ms text) :
    (Acceptable ms → ∃ m, Denotes ms m) ∧
      (∀ m, Denotes ms m → decodeOne (encodeChars text) = .ok m) ∧
        (Unfit ms → decodeOne (encodeChars text) = .error notMessage) :=
  ⟨Acceptable.exists_denotes, fun _ hm => hm.decodeOne_eq h, fun hunfit => hunfit.decodeOne_eq h⟩

end

/-! ## An object with escapes -/

/-- The parts of a text whose characters stand for themselves. -/
def plainParts (s : String) : List StringPart :=
  s.toList.filterMap fun c =>
    if h : c ≠ '"' ∧ c ≠ '\\' ∧ 0x20 ≤ c.toNat then some (.plain c h.1 h.2.1 h.2.2) else none

/-- A member without blanks. -/
def tightMember (key : List StringPart) (value : List Char) : Member :=
  ⟨.none, key, .none, ⟨.none, value, .none⟩⟩

/-- A tenth, which no double is. -/
def tenth : Literal := { whole := ['0'], fraction := some ['1'], exponent := none }

theorem valid_tenth : tenth.Valid where
  whole_digits := by decide
  whole_ne_nil := by decide
  whole_head := .inr rfl
  fraction_digits := by
    rintro f ⟨⟩
    decide
  letter_e := .inl rfl
  exponent_integer := by
    rintro e ⟨⟩

/-- A list with an object in it. -/
def nestedList : List Char :=
  Json.bracketed .list .none (([⟨.none, Json.bracketed .object .none
    ([tightMember (plainParts "id") nothing].map Member.chars), .none⟩] : List Spaced).map
      Spaced.chars)

theorem wellFormed_nestedList : WellFormed nestedList :=
  .list .none (List.forall_mem_singleton.2 (.object .none (List.forall_mem_singleton.2 .null)))

/-- A character as a surrogate pair. -/
def pairParts : List StringPart :=
  [.code ⟨⟨0xd, true⟩, ⟨8, true⟩, ⟨3, true⟩, ⟨0xd, false⟩⟩,
    .code ⟨⟨0xd, true⟩, ⟨0xe, true⟩, ⟨0, true⟩, ⟨0, false⟩⟩]

/-- The members of an object with an escaped letter in a key, a surrogate pair in a text,
and a member that no message has. -/
def escapedMembers : List Member :=
  [tightMember (.code ⟨⟨0, false⟩, ⟨0, false⟩, ⟨6, false⟩, ⟨9, false⟩⟩ :: plainParts "d")
      (quoted pairParts),
    tightMember (plainParts "x") nestedList,
    tightMember (plainParts "type") (quoted (plainParts "gauge")),
    tightMember (plainParts "delta") ((natLiteral 7).signed false),
    tightMember (plainParts "value") (tenth.signed false)]

/-- The same members, and a text twice: first as null, and then with an escaped letter in
its key. -/
def repeatedMembers : List Member :=
  escapedMembers ++ [tightMember (plainParts "hash") nothing,
    tightMember (.code ⟨⟨0, false⟩, ⟨0, false⟩, ⟨6, false⟩, ⟨8, true⟩⟩ :: plainParts "ash")
      (quoted [])]

/-- The values of the members with a text twice are well formed. -/
theorem wellFormed_repeatedMembers : ∀ m ∈ repeatedMembers, WellFormed m.value := by
  simp only [repeatedMembers, escapedMembers, List.cons_append, List.nil_append,
    List.forall_mem_cons]
  exact ⟨.string _, wellFormed_nestedList, .string _, .number (valid_natLiteral 7) false,
    .number valid_tenth false, .null, .string _, fun _ h => by cases h⟩

theorem denotes_escapedMembers : Denotes escapedMembers
    ⟨"😀", "gauge", some (.clamp 7), some (.ofRank false 0x3fb999999999999a), none⟩ where
  keys := by
    have hall : ∀ m ∈ escapedMembers, (textOf? m.key).isSome := by decide +kernel
    exact fun m hm => Option.isSome_iff_exists.1 (hall m hm)
  id := ⟨_, by decide +kernel, pairParts, rfl, by decide +kernel⟩
  kind := ⟨_, by decide +kernel, plainParts "gauge", rfl, by decide +kernel⟩
  delta := ⟨_, by decide +kernel, natLiteral 7, false,
    ⟨rfl, valid_natLiteral 7, rfl, rfl, by decide +kernel⟩, by decide +kernel⟩
  value := ⟨_, by decide +kernel, tenth, false, ⟨0x3fb999999999999a, by decide⟩,
    ⟨rfl, valid_tenth, by decide +kernel⟩, by decide +kernel,
    (Binary64.ofDecimal_eq_iff_isNearest false (by decide +kernel)).1
      (by decide +kernel)⟩
  hash := .inl (by decide +kernel)

/-- An object with escapes is decoded, and refused with a field that is there twice. -/
theorem decodeOne_object_of_escapes :
    decodeOne (encodeChars ("\x7b\"\\u0069d\":\"\\uD83d\\uDE00\",\"x\":[\x7b\"id\":null\x7d]," ++
        "\"type\":\"gauge\",\"delta\":7,\"value\":0.1\x7d").toList) =
      .ok ⟨"😀", "gauge", some (.clamp 7), some (.ofRank false 0x3fb999999999999a), none⟩ ∧
    decodeOne (encodeChars ("\x7b\"\\u0069d\":\"\\uD83d\\uDE00\",\"x\":[\x7b\"id\":null\x7d]," ++
        "\"type\":\"gauge\",\"delta\":7,\"value\":0.1,\"hash\":null,\"\\u0068ash\":\"\"\x7d").toList) =
      .error notMessage := by
  have hescaped : ∀ m ∈ escapedMembers, WellFormed m.value := fun m hm =>
    wellFormed_repeatedMembers m (List.mem_append_left _ hm)
  constructor
  · exact (decodeOne_object ⟨hescaped, .none, .none, .none, by decide +kernel⟩).2.1 _
      denotes_escapedMembers
  · exact (decodeOne_object ⟨wellFormed_repeatedMembers, .none, .none, .none,
      by decide +kernel⟩).2.2 (.inl ⟨"hash", by decide, by decide +kernel⟩)

end Message

end MetricRelay
