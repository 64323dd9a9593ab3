import MetricRelay.Json.Token

/-!
# Records in a JSON text

A record is an object of named fields, or a list of its fields in a fixed order.  Only scalars
can be fields of interest; a list or an object in a field is skipped over, however deep it is.

Main definitions:

- `Skim.step`: what a token means while a value is skipped over.
- `skim?`: the bytes after a value that is skipped over.
- `readField?`: a field, of which only a scalar is kept.
- `readItems?`: the items between two brackets.
- `Record` and `readRecord?`: a record with its fields as they stand.
- `whole?`: a text that is one value with blanks around it.
-/

namespace MetricRelay.Json

open Utf8 (Bytes)

/-! ## Skipping over a value -/

/-- What may come next while a value is skipped over. -/
inductive Skim.Next where
  | value
  | firstItem
  | firstKey
  | key
  | colon
  | rest
  deriving DecidableEq

/-- A place inside a value that is skipped over: the open brackets, the innermost first, and what
may come next; or its end. -/
inductive Skim where
  | within (next : Skim.Next) (brackets : List Bracket)
  | done
  deriving DecidableEq

namespace Skim

/-- After a value is complete: the rest of the bracket that it is in, or the end. -/
def afterValue : List Bracket → Skim
  | [] => done
  | brackets => within .rest brackets

/-- After an opening bracket. -/
def afterOpening (b : Bracket) (brackets : List Bracket) : Skim :=
  match b with
  | .list => within .firstItem (.list :: brackets)
  | .object => within .firstKey (.object :: brackets)

/-- After a closing bracket, which has to close the innermost open one. -/
def afterClosing (b : Bracket) : List Bracket → Option Skim
  | [] => none
  | top :: brackets => if b = top then some (afterValue brackets) else none

/-- Where a value may start. -/
def startValue (brackets : List Bracket) : Token → Option Skim
  | .scalar _ => some (afterValue brackets)
  | .opening b => some (afterOpening b brackets)
  | _ => none

/-- Where a key has to stand. -/
def startKey (brackets : List Bracket) : Token → Option Skim
  | .scalar (.text _) => some (within .colon brackets)
  | _ => none

/-- What a token means at a place. -/
def step (next : Next) (brackets : List Bracket) (t : Token) : Option Skim :=
  match next, t with
  | .value, t => startValue brackets t
  | .firstItem, .closing b => afterClosing b brackets
  | .firstItem, t => startValue brackets t
  | .firstKey, .closing b => afterClosing b brackets
  | .firstKey, t => startKey brackets t
  | .key, t => startKey brackets t
  | .colon, .colon => some (within .value brackets)
  | .colon, _ => none
  | .rest, .comma =>
    match brackets with
    | .object :: _ => some (within .key brackets)
    | _ => some (within .value brackets)
  | .rest, .closing b => afterClosing b brackets
  | .rest, _ => none

end Skim

/-- The bytes after a value that is skipped over, from a place inside it. -/
def skim? (next : Skim.Next) (brackets : List Bracket) (s : Bytes) : Option Bytes :=
  match _h : token? s with
  | none => none
  | some (t, r) =>
    match Skim.step next brackets t with
    | none => none
    | some .done => some r
    | some (.within next brackets) => skim? next brackets r
termination_by s.length
decreasing_by exact length_lt_of_token? _h

/-! ## Fields and records -/

/-- A field of a record: a scalar, or something that no record has use for. -/
inductive Field where
  | scalar (x : Scalar)
  | compound
  deriving DecidableEq

/-- A value as a field. -/
def readField? (s : Bytes) : Option (Field × Bytes) :=
  match token? s with
  | some (.scalar x, r) => some (.scalar x, r)
  | some (.opening .list, r) => (skim? .firstItem [.list] r).map (.compound, ·)
  | some (.opening .object, r) => (skim? .firstKey [.object] r).map (.compound, ·)
  | _ => none

/-- A key, which has to be a text, and its field. -/
def readNamedField? (s : Bytes) : Option ((String × Field) × Bytes) :=
  match token? s with
  | some (.scalar (.text (some key)), r) =>
    match token? r with
    | some (.colon, r) => (readField? r).map fun x => ((key, x.1), x.2)
    | _ => none
  | _ => none

/-- Items separated by commas, up to a closing bracket; at least one. -/
def readMoreItems? {α : Type} (read : Bytes → Option (α × Bytes)) (b : Bracket) (s : Bytes) :
    Option (List α × Bytes) :=
  match read s with
  | none => none
  | some (x, r) =>
    match token? r with
    | some (.comma, r) =>
      if _h : r.length < s.length then
        (readMoreItems? read b r).map fun y => (x :: y.1, y.2)
      else none
    | some (.closing b', r) => if b' = b then some ([x], r) else none
    | _ => none
termination_by s.length

/-- The items after an opening bracket, and the bytes after the bracket that closes it. -/
def readItems? {α : Type} (read : Bytes → Option (α × Bytes)) (b : Bracket) (s : Bytes) :
    Option (List α × Bytes) :=
  match token? s with
  | some (.closing b', r) => if b' = b then some ([], r) else none
  | _ => readMoreItems? read b s

/-- A record with its fields as they stand. -/
inductive Record where
  | named (fields : List (String × Field))
  | listed (fields : List Field)
  deriving DecidableEq

/-- A record. -/
def readRecord? (s : Bytes) : Option (Record × Bytes) :=
  match token? s with
  | some (.opening .object, r) =>
    (readItems? readNamedField? .object r).map fun x => (.named x.1, x.2)
  | some (.opening .list, r) => (readItems? readField? .list r).map fun x => (.listed x.1, x.2)
  | _ => none

/-- A list of items. -/
def readList? {α : Type} (read : Bytes → Option (α × Bytes)) (s : Bytes) :
    Option (List α × Bytes) :=
  match token? s with
  | some (.opening .list, r) => readItems? read .list r
  | _ => none

/-- Pass on what was read if nothing but blanks follows it. -/
def whole? {α : Type} : Option (α × Bytes) → Option α
  | some (x, r) => if r.all isBlankByte then some x else none
  | none => none

namespace Record

/-- The values of one named field; a list has none. -/
def named? (r : Record) (key : String) : List Field :=
  match r with
  | .named fields => (fields.filter (·.1 = key)).map (·.2)
  | .listed _ => []

/-- The fields of a record in a given order, each at most once: by name, or by position.  A list
has fields for the first `least` names at least, and for no more than all of them. -/
def fields? (r : Record) (names : List String) (least : Nat) : Option (List (Option Field)) :=
  match r with
  | .named _ =>
    names.mapM fun key =>
      match r.named? key with
      | [] => some none
      | [x] => some (some x)
      | _ => none
  | .listed fields =>
    if least ≤ fields.length ∧ fields.length ≤ names.length then
      some ((List.range names.length).map fun i => fields[i]?)
    else none

end Record

namespace Field

/-- A field that has to be a text. -/
def text? : Option Field → Option String
  | some (.scalar (.text content)) => content
  | _ => none

/-- A field that may be missing or null, and otherwise has to be of some type. -/
def optional? {α : Type} (read : Scalar → Option α) : Option Field → Option (Option α)
  | none => some none
  | some (.scalar .null) => some none
  | some (.scalar x) => (read x).map some
  | some .compound => none

end Field

end MetricRelay.Json
