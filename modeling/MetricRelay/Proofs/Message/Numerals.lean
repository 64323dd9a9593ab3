import Mathlib.Data.List.Perm.Basic
import MetricRelay.Proofs.Message.RoundTrip
import MetricRelay.Proofs.Metric.Canonical
import MetricRelay.Proofs.Number.Exponents

/-!
# Numbers in paths and in messages

The number of an update arrives as free text in a path or as a number in a
message.  Two readers take it, and they come to the same value, or both refuse it:
a total that does not fit, or a reading that is too large for a double.

Main definitions:

- `Literal.value?`: the value of a kind that a literal stands for.
- `Literal.Updates`: the literals that are compared for a kind.
- `Message.IsUpdate`: a body that is an object with one update.
- `Message.Says`: an outcome is the update of a value, or a refusal.

Main results:

- `Message.isUpdate_object`: an object carries an update, however its members are
  ordered.
- `Message.says_decodePath` and `Message.says_decodeOne`: what becomes of a literal
  in a path and in a message.
-/

namespace MetricRelay

open Utf8 (Bytes encodeChars)
open Json (Reads Field)

/-! ## The value of a literal -/

namespace Literal

/-- The integer that the digits of a literal stand for. -/
def integer (negative : Bool) (x : Literal) : Int :=
  if negative then -(x.digits : Int) else x.digits

/-- The value of a kind that a literal stands for: the total, if it fits, or the
nearest double, unless the number is too large for one. -/
def value? (kind : Kind) (negative : Bool) (x : Literal) : Option Value :=
  match kind with
  | .counter => (Count.ofInt? (x.integer negative)).map .total
  | .gauge =>
    if Binary64.Overflows x.digits x.power then none
    else some (.reading (Binary64.ofDecimal negative x.digits x.power))

/-- The literals of a kind: an integer other than a negative zero for a total, and
any literal that is counted alike for a reading. -/
def Updates (kind : Kind) (negative : Bool) (x : Literal) : Prop :=
  match kind with
  | .counter => x.fraction = none ∧ x.exponent = none ∧ x.signed negative ≠ ['-', '0']
  | .gauge => x.CountsAlike

instance (kind : Kind) (negative : Bool) (x : Literal) : Decidable (x.Updates kind negative) := by
  cases kind <;> unfold Updates <;> infer_instance

namespace Valid

variable {x : Literal} {negative : Bool}

section Integers

variable (h : x.Valid) (hfraction : x.fraction = none) (hexponent : x.exponent = none)
include h hfraction hexponent

/-- A literal without fraction and exponent is read as its integer. -/
theorem readInt?_signed : readInt? (x.signed negative) = some (x.integer negative) := by
  have hchars : x.chars = x.whole := by simp [chars, hfraction, hexponent]
  have hdigits : x.digits = digitsNat x.whole := by simp [digits, hfraction]
  rw [readInt?, signed, integer, hchars, hdigits]
  cases negative with
  | false => exact readSigned?_of_all h.whole_digits h.whole_ne_nil
  | true => exact readSigned?_minus h.whole_digits h.whole_ne_nil

/-- An integer literal is read as a total if it is in the range of totals. -/
theorem readCount?_signed :
    readCount? (x.signed negative) = Count.ofInt? (x.integer negative) := by
  rw [readCount?, h.readInt?_signed hfraction hexponent]
  rfl

/-- An integer literal is an update of a total, but for a negative zero. -/
theorem count?_signed (hzero : x.signed negative ≠ ['-', '0']) :
    Message.count? (.number (x.signed negative)) = Count.ofInt? (x.integer negative) := by
  have hall : (x.signed negative).all (fun c => isDigit c || c = '-') = true := by
    rw [List.all_eq_true]
    intro c hc
    rw [signed, chars, hfraction, hexponent, Option.elim_none, Option.elim_none, List.append_nil,
      List.append_nil, List.mem_append] at hc
    rcases hc with hsign | hwhole
    · cases negative with
      | false => cases hsign
      | true =>
        rw [List.mem_singleton.1 hsign]
        rfl
    · rw [List.all_eq_true.1 h.whole_digits c hwhole]
      rfl
  rw [Message.count?, hall, decide_eq_true hzero]
  exact h.readCount?_signed hfraction hexponent

end Integers

/-- A literal is an update of a reading, unless its number is too large. -/
theorem double?_signed (h : x.Valid) :
    Message.double? (.number (x.signed negative)) =
      if Binary64.Overflows x.digits x.power then none
      else some (Binary64.ofDecimal negative x.digits x.power) := by
  rw [Message.double?, readNumeral?_signed h, Option.filter_some]
  by_cases hlarge : Binary64.Overflows x.digits x.power
  · rw [if_pos hlarge, Binary64.ofDecimal_of_overflows negative hlarge]
    rfl
  · rw [if_neg hlarge, if_pos (Binary64.isFinite_ofDecimal negative hlarge)]

end Valid

end Literal

/-! ## Objects -/

/-- The field of a message for the values of a kind. -/
def Kind.field : Kind → String
  | counter => "delta"
  | gauge => "value"

namespace Json.Record

/-- Members of an object with the same names in another order. -/
theorem named?_of_perm {fields fields' : List (String × Field)} (h : fields.Perm fields')
    {key : String} (hone : ((named fields').named? key).length ≤ 1) :
    (named fields).named? key = (named fields').named? key := by
  have hperm : ((named fields).named? key).Perm ((named fields').named? key) :=
    (h.filter _).map _
  match hfields : (named fields').named? key, hone with
  | [], _ => exact (hfields ▸ hperm).eq_nil
  | [x], _ => exact (hfields ▸ hperm).eq_singleton

/-- The fields of a record depend on what is under their names only. -/
theorem fields?_congr {fields fields' : List (String × Field)} {names : List String} (least : Nat)
    (h : ∀ key ∈ names, (named fields).named? key = (named fields').named? key) :
    (named fields).fields? names least = (named fields').fields? names least := by
  simp only [fields?]
  induction names with
  | nil => rfl
  | cons key names ih =>
    rw [List.mapM_cons, List.mapM_cons, h key List.mem_cons_self,
      ih fun key' hkey' => h key' (List.mem_cons_of_mem _ hkey')]

end Json.Record

namespace Message

/-- An outcome is the message with a value, or, if there is no value, a refusal of
what was sent. -/
inductive Says (name : String) : Option Value → Outcome Message → Prop
  | message (v : Value) : Says name (some v) (.ok (ofValue name v))
  | refusal {e : Failure} (h : e.fault = .badRequest) : Says name none (.error e)

/-- A message holds its value. -/
theorem ofValue_injective {name : String} {v w : Value} (h : ofValue name v = ofValue name w) :
    v = w := by
  cases v <;> cases w <;> simp_all [ofValue, query]

/-- What says a value is the message with that value. -/
theorem Says.eq_some {name : String} {v : Option Value} {w : Value}
    (h : Says name v (.ok (ofValue name w))) : v = some w := by
  generalize hm : ofValue name w = m at h
  cases h with
  | message v => rw [ofValue_injective hm]

variable {x : Literal} {kind : Kind} {negative : Bool} {name : String} {body : Bytes}

/-! ## Paths -/

/-- A path with the name of a kind is decoded as its value. -/
theorem decodePath_name (kind : Kind) (name raw : String) :
    decodePath kind.name name raw = (Value.parse kind raw).map (ofValue name) := by
  unfold decodePath
  rw [Kind.parse_name]
  cases hvalue : Value.parse kind raw <;> simp [bind, Except.bind, hvalue, pure, Except.pure,
    Except.map]

/-- No literal has blanks around it. -/
theorem trim_signed (h : x.Valid) :
    Text.trim (String.ofList (x.signed negative)).toList = x.signed negative := by
  rw [String.toList_ofList]
  exact Text.trim_eq_self h.isBlank_of_mem_signed

/-- A finite reading is taken from a path. -/
theorem parse_gauge_signed (h : x.Valid) {y : Binary64} (hy : y.isFinite = true)
    (hread : readDouble? (x.signed negative) = some y) :
    Value.parse .gauge (String.ofList (x.signed negative)) = .ok (.reading y) := by
  simp only [Value.parse, trim_signed h, hread]
  exact Value.finite_of_isFinite hy

/-- In a path a literal is read as its value. -/
theorem says_decodePath (h : x.Valid) (hupdates : x.Updates kind negative) (name : String) :
    Says name (x.value? kind negative)
      (decodePath kind.name name (String.ofList (x.signed negative))) := by
  rw [decodePath_name]
  cases kind with
  | counter =>
    rcases hupdates with ⟨hfraction, hexponent, -⟩
    simp only [Value.parse, trim_signed h, h.readCount?_signed hfraction hexponent, Literal.value?]
    cases Count.ofInt? (x.integer negative) with
    | some n => exact .message _
    | none => exact .refusal rfl
  | gauge =>
    have hread := h.readDouble?_eq_readNumeral? hupdates negative
    rw [Literal.readNumeral?_signed h] at hread
    rw [Literal.value?]
    by_cases hlarge : Binary64.Overflows x.digits x.power
    · rw [Binary64.ofDecimal_of_overflows negative hlarge] at hread
      simp only [if_pos hlarge, Value.parse, trim_signed h, hread]
      exact .refusal rfl
    · rw [if_neg hlarge,
        parse_gauge_signed h (Binary64.isFinite_ofDecimal negative hlarge) hread]
      exact .message _

/-! ## Bodies -/

/-- The members of an object that carries one update. -/
def updateFields (kind : Kind) (name : String) (literal : List Char) : List (String × Field) :=
  [("id", .scalar (.text (some name))), ("type", .scalar (.text (some kind.name))),
    (kind.field, .scalar (.number literal))]

/-- A body that is an object with a name, a kind and a number in the field for that
kind, and with no other field of a message. -/
def IsUpdate (body : Bytes) (kind : Kind) (name : String) (literal : List Char) : Prop :=
  ∃ fields, Json.whole? (Json.readRecord? body) = some (.named fields) ∧
    ∀ key ∈ ["id", "type", "delta", "value", "hash"],
      (Json.Record.named fields).named? key =
        (Json.Record.named (updateFields kind name literal)).named? key

/-- An object carries an update, however its members are ordered. -/
theorem isUpdate_object (h : x.Valid) {members : List (List Char)}
    (hmembers : members.Perm [Json.member "id" (Json.quote name),
      Json.member "type" (Json.quote kind.name), Json.member kind.field (x.signed negative)]) :
    IsUpdate (encodeChars (Json.object members)) kind name (x.signed negative) := by
  have htext (key s : String) :
      Reads Json.readNamedField? (Json.member key (Json.quote s)) (key, .scalar (.text (some s))) :=
    Json.reads_member key (Json.reads_quote s).field
  have hnumber : Reads Json.readNamedField? (Json.member kind.field (x.signed negative))
      (kind.field, .scalar (.number (x.signed negative))) :=
    Json.reads_member kind.field (Json.reads_literal h negative).field
  have hreads : List.Forall₂ (Reads Json.readNamedField?) [Json.member "id" (Json.quote name),
      Json.member "type" (Json.quote kind.name), Json.member kind.field (x.signed negative)]
      (updateFields kind name (x.signed negative)) :=
    .cons (htext "id" name) (.cons (htext "type" kind.name) (.cons hnumber .nil))
  rcases List.perm_comp_forall₂ hmembers hreads with ⟨fields, hfields, hperm⟩
  have hrecord := Json.reads_object hfields Json.isBlank_nil
  rw [List.append_nil] at hrecord
  refine ⟨fields, Json.whole?_of_reads hrecord, fun key hkey => ?_⟩
  apply Json.Record.named?_of_perm hperm
  cases kind <;> revert key <;> simp [updateFields, Kind.field, Json.Record.named?]

/-- A body is one message if it is one record that stands for a message. -/
theorem whole?_read? (body : Bytes) :
    Json.whole? (read? body) = (Json.whole? (Json.readRecord? body)).bind ofRecord? := by
  unfold read?
  cases Json.readRecord? body with
  | none => rfl
  | some z =>
    rcases z with ⟨r, t⟩
    by_cases hblank : t.all Json.isBlankByte = true
    · cases hmessage : ofRecord? r <;> simp [Json.whole?, hblank, hmessage]
    · cases hmessage : ofRecord? r <;> simp [Json.whole?, hblank, hmessage]

/-- The value of a kind in the number of a message. -/
def number? (kind : Kind) (literal : List Char) : Option Value :=
  match kind with
  | .counter => (count? (.number literal)).map .total
  | .gauge => (double? (.number literal)).map .reading

/-- The message of an object that carries an update. -/
theorem ofRecord?_updateFields (kind : Kind) (name : String) (literal : List Char) :
    ofRecord? (.named (updateFields kind name literal)) =
      (number? kind literal).map (ofValue name) := by
  cases kind with
  | counter =>
    cases hcount : count? (.number literal) <;>
      simp [ofRecord?, updateFields, Kind.field, Json.Record.fields?, Json.Record.named?,
        Field.text?, Field.optional?, hcount, number?,
        ofValue, query, Kind.name]
  | gauge =>
    cases hdouble : double? (.number literal) <;>
      simp [ofRecord?, updateFields, Kind.field, Json.Record.fields?, Json.Record.named?,
        Field.text?, Field.optional?, hdouble, number?,
        ofValue, query, Kind.name]

/-- Why a body that is not one message is refused. -/
def notMessage : Failure :=
  .badRequest "invalid metric json: not one metric message"

/-- An update is decoded as its number, if there is one of its kind. -/
theorem decodeOne_of_isUpdate {literal : List Char} (h : IsUpdate body kind name literal) :
    decodeOne body =
      match number? kind literal with
      | some v => .ok (ofValue name v)
      | none => .error notMessage := by
  rcases h with ⟨fields, hwhole, hnamed⟩
  have hfields := Json.Record.fields?_congr 2 hnamed
  have hrecord : ofRecord? (.named fields) = (number? kind literal).map (ofValue name) := by
    rw [← ofRecord?_updateFields, ofRecord?, ofRecord?, hfields]
  rw [decodeOne, whole?_read?, hwhole, Option.bind_some, hrecord]
  cases number? kind literal <;> rfl

/-- The number of a message stands for the value of its literal. -/
theorem number?_signed (h : x.Valid) (hupdates : x.Updates kind negative) :
    number? kind (x.signed negative) = x.value? kind negative := by
  cases kind with
  | counter =>
    rcases hupdates with ⟨hfraction, hexponent, hzero⟩
    rw [number?, h.count?_signed hfraction hexponent hzero, Literal.value?]
  | gauge =>
    rw [number?, h.double?_signed, Literal.value?]
    by_cases hlarge : Binary64.Overflows x.digits x.power
    · rw [if_pos hlarge, if_pos hlarge]
      rfl
    · rw [if_neg hlarge, if_neg hlarge]
      rfl

/-- In a message a literal is read as its value. -/
theorem says_decodeOne (h : x.Valid) (hupdates : x.Updates kind negative)
    (hbody : IsUpdate body kind name (x.signed negative)) :
    Says name (x.value? kind negative) (decodeOne body) := by
  rw [decodeOne_of_isUpdate hbody, number?_signed h hupdates]
  cases x.value? kind negative with
  | some v => exact .message v
  | none => exact .refusal rfl

/-- A literal with too many zeros is read as two readings. -/
theorem not_says_shifted {zeros : Nat} (h : zeros = 0x10000)
    (hbody : IsUpdate body .gauge name ((Literal.shifted zeros).signed false)) {v : Option Value}
    (hpath : Says name v (decodePath Kind.gauge.name name
      (String.ofList ((Literal.shifted zeros).signed false)))) : ¬ Says name v (decodeOne body) := by
  have hone : (Binary64.ofDecimal false 1 0).isFinite = true := by decide +kernel
  have hne : Binary64.ofDecimal false 1 0 ≠ Binary64.zero false := by decide +kernel
  have hnumber : number? .gauge ((Literal.shifted zeros).signed false) =
      some (.reading (Binary64.zero false)) := by
    rw [number?, double?, Literal.readNumeral?_shifted (by omega)]
    rfl
  rw [decodePath_name, parse_gauge_signed (Literal.valid_shifted zeros) hone
    (Literal.readDouble?_shifted h false)] at hpath
  rw [decodeOne_of_isUpdate hbody, hnumber]
  intro hmessage
  have hvalue := hpath.eq_some.symm.trans hmessage.eq_some
  exact hne (Value.reading.inj (Option.some.inj hvalue))

end Message

end MetricRelay
