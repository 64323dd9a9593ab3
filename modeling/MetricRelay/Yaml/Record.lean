import MetricRelay.Text.Utf8
import MetricRelay.Yaml.Document

/-!
# Records in a YAML document

A record is a mapping whose keys are known texts, each at most once.  Its fields are scalars of a
given type, or records again.  How a scalar is written decides what it may stand for: a number, a
truth value or nothing is written without quotes.

Main definitions:

- `Fields` and `Document.fields`: the fields of a record, found by name.
- `Document.text`, `optionalText`, `natural`, `boolean`: the types of a field.
-/

namespace MetricRelay.Yaml

/-! ## Words -/

/-- The words for nothing. -/
def isNothing (s : List Char) : Bool :=
  s = "~".toList || s = "null".toList || s = "Null".toList || s = "NULL".toList

/-- The words for the truth values. -/
def readBoolean? (s : List Char) : Option Bool :=
  if s = "true".toList ∨ s = "True".toList ∨ s = "TRUE".toList then some true
  else if s = "false".toList ∨ s = "False".toList ∨ s = "FALSE".toList then some false
  else none

/-- The number of a digit, in a base of at most sixteen. -/
def digitIn? (base : Nat) (c : Char) : Option Nat :=
  (Hex.digitValue? c).filter (· < base)

/-- A row of digits, at least one. -/
def readDigits? (base : Nat) (s : List Char) : Option Nat :=
  if s.isEmpty then none
  else s.foldlM (fun n c => (digitIn? base c).map fun d => n * base + d) 0

/-- A natural number: an optional plus sign and then digits, of which the first of several is not
zero, or the sign of another base and its digits. -/
def readNatural? (s : List Char) : Option Nat :=
  let s := match s with
    | '+' :: r => r
    | s => s
  match s with
  | '0' :: 'x' :: r => readDigits? 16 r
  | '0' :: 'o' :: r => readDigits? 8 r
  | '0' :: 'b' :: r => readDigits? 2 r
  | '0' :: _ :: _ => none
  | s => readDigits? 10 s

/-- Whether a scalar is written so that it may stand for a value of a type: without quotes, or as
a literal block that says so. -/
def mayStandFor (type : String) (tag : Option (List Char)) : Style → Bool
  | .plain => true
  | .literal => tag = some (standardTag type)
  | _ => false

namespace Document

/-! ## Types of fields -/

/-- A text. -/
def text (d : Document) (node : Node) : Read String :=
  match d.resolve node with
  | .scalar _ text _ => .ok (String.ofList text)
  | _ => .error .wrongType

/-- A text, or nothing. -/
def optionalText (d : Document) (node : Node) : Read (Option String) :=
  match d.resolve node with
  | .scalar tag text .plain =>
    if tag = some (standardTag "null") then
      if isNothing text then .ok none else .error .wrongType
    else if tag.isNone && (text.isEmpty || isNothing text) then .ok none
    else .ok (some (String.ofList text))
  | .scalar _ text _ => .ok (some (String.ofList text))
  | _ => .error .wrongType

/-- A natural number up to some greatest one. -/
def natural (greatest : Nat) (d : Document) (node : Node) : Read Nat :=
  match d.resolve node with
  | .scalar tag text style =>
    if mayStandFor "int" tag style then
      match readNatural? text with
      | some n => if n ≤ greatest then .ok n else .error .wrongType
      | none => .error .wrongType
    else .error .wrongType
  | _ => .error .wrongType

/-- A truth value. -/
def boolean (d : Document) (node : Node) : Read Bool :=
  match d.resolve node with
  | .scalar tag text style =>
    if mayStandFor "bool" tag style then
      match readBoolean? text with
      | some b => .ok b
      | none => .error .wrongType
    else .error .wrongType
  | _ => .error .wrongType

/-! ## Records -/

/-- The keys of a mapping as texts, with their values. -/
def textEntries (d : Document) : List (Node × Node) → Read (List (String × Node))
  | [] => .ok []
  | (key, value) :: r => do
    let key ← d.text key
    let r ← textEntries d r
    return (key, value) :: r

/-- The entries of a record.  A record of which nothing is written has none. -/
def entries (d : Document) (node : Node) : Read (List (String × Node)) :=
  match d.resolve node with
  | .mapping entries => d.textEntries entries
  | .scalar _ [] .plain => .ok []
  | _ => .error .wrongType

end Document

/-- The fields of a record, each with its name. -/
structure Fields where
  entries : List (String × Node)

namespace Fields

/-- No fields. -/
def none : Fields := ⟨[]⟩

/-- The value of a field, if it is there. -/
def find? (f : Fields) (name : String) : Option Node := f.entries.lookup name

/-- A field that has to be there. -/
def required {α : Type} (f : Fields) (name : String) (read : Node → Read α) : Read α :=
  match f.find? name with
  | some node => read node
  | .none => .error .missingField

/-- A field with a default. -/
def orElse {α : Type} (f : Fields) (name : String) (default : α) (read : Node → Read α) :
    Read α :=
  match f.find? name with
  | some node => read node
  | .none => .ok default

end Fields

/-- The fields of a record, which may only have some names, and each name once. -/
def Document.fields (d : Document) (names : List String) (node : Node) : Read Fields := do
  let entries ← d.entries node
  if !entries.all fun entry => names.contains entry.1 then throw .unknownField
  if !decide ((entries.map (·.1)).Nodup) then throw .repeatedField
  return ⟨entries⟩

/-- The fields of a record inside another one, none if it is not there. -/
def Document.fieldsOf (d : Document) (outer : Fields) (name : String) (names : List String) :
    Read Fields :=
  outer.orElse name .none (d.fields names)

end MetricRelay.Yaml
