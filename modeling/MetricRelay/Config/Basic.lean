import MetricRelay.Failure
import MetricRelay.Yaml.Record

/-!
# Configurations

A configuration is a YAML record with sections.  It is read strictly: a field that is not known, a
field that stands twice, and a value of another type than its field has are faults.

Main definitions:

- `Config.read`: read a text as some configuration and check it.
- `Config.checkVersion` and `Config.readKey`: what all configurations share.
-/

namespace MetricRelay.Config

open Yaml (Document Fields Read)

/-- The greatest number of a 32-bit field. -/
def greatestWord : Nat := 4294967295

/-- The greatest number of a 64-bit field. -/
def greatestLong : Nat := 18446744073709551615

/-- A configuration of some type from the text of a document, if the document has its fields and
the values pass its checks. -/
def read {α : Type} (ofDocument : Document → Read α) (check : α → Outcome Unit) (text : String) :
    Outcome α :=
  match Document.parse text >>= ofDocument with
  | .error fault => .error (.badRequest ("invalid yaml: " ++ fault.message))
  | .ok config => do
    check config
    return config

/-- The version that every configuration states. -/
def readVersion (d : Document) (top : Fields) : Read Nat :=
  top.required "version" (d.natural greatestWord)

/-- There is one version so far. -/
def checkVersion (version : Nat) : Outcome Unit :=
  if version = 1 then .ok ()
  else .error (.badRequest ("unsupported config version " ++ natText version))

/-- The signing key, in a section of its own. -/
def readKey (d : Document) (top : Fields) : Read (Option String) := do
  let signing ← d.fieldsOf top "signing" ["key"]
  signing.orElse "key" none d.optionalText

/-- Refuse a configuration for some reason unless it passes a check. -/
def require (holds : Bool) (reason : String) : Outcome Unit :=
  if holds then .ok () else .error (.badRequest reason)

end MetricRelay.Config
