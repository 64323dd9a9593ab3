import MetricRelay.Metric.Basic
import MetricRelay.Signature.Hmac
import MetricRelay.Text.Hex

/-!
# Signing

Signing is optional: a signer without a key signs nothing and says so.  A tag is computed over the
canonical text of what is signed, and it is checked by computing it again.

Main definitions:

- `Signer`: a key, or none; an empty key is none.
- `Signer.sign` and `Signer.verify`, over anything that can give its canonical bytes.

Main results:

- `Signer.verify_sign`: a tag that was just made is valid.
-/

namespace MetricRelay

open Utf8 (Bytes)

/-- What makes and checks tags. -/
structure Signer where
  key : Option Bytes
  deriving DecidableEq

namespace Signer

/-- The signer that does not sign. -/
def disabled : Signer := ⟨none⟩

/-- The signer of a key. -/
def ofKey (key : Bytes) : Signer :=
  if key.isEmpty then disabled else ⟨some key⟩

/-- The signer of a key given as a text, or of none. -/
def ofText? : Option String → Signer
  | some key => ofKey (Utf8.encode key)
  | none => disabled

/-- Whether there is a key. -/
def isEnabled (s : Signer) : Bool := s.key.isSome

/-- The tag over some canonical bytes, which may be impossible to give. -/
def sign (s : Signer) (bytes : Outcome Bytes) : Outcome Bytes :=
  match s.key with
  | none => .error .unsigned
  | some key =>
    match bytes with
    | .ok message => .ok (Hmac.tag key message)
    | .error e => .error (.digest e.message)

/-- Whether a signature is the tag over some canonical bytes. -/
def verify (s : Signer) (bytes : Outcome Bytes) (signature : Bytes) : Outcome Bool :=
  (s.sign bytes).map (· == signature)

/-- How a signer looks when it is inspected: the key is not shown. -/
def inspected (s : Signer) : String :=
  "Signer \x7b enabled: " ++ (if s.isEnabled then "true" else "false") ++ " \x7d"

/-- A tag that was just made is valid. -/
theorem verify_sign {s : Signer} {bytes : Outcome Bytes} {tag : Bytes}
    (h : s.sign bytes = .ok tag) : s.verify bytes tag = .ok true := by
  simp [verify, h, Except.map]

end Signer

/-- The bytes that a metric's tag is computed over. -/
def Metric.signedBytes (m : Metric) : Bytes := Utf8.encode m.canonical

end MetricRelay
