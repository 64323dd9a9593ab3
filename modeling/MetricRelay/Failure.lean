import MetricRelay.Text.Quoted
import MetricRelay.Number.Decimal

/-!
# Failures

Everything that can go wrong, by cause.  Each cause has one wording and one class, and the class
fixes the status under which a client is told.

Main definitions:

- `Failure`: the causes.
- `Failure.message`: the wording of each.
- `Failure.fault` and `Fault.status`: who is to blame, and the status that says so.
-/

namespace MetricRelay

/-- The class of a failure, as a client learns it. -/
inductive Fault where
  | badRequest
  | notImplemented
  | notFound
  | forbidden
  | internal
  deriving DecidableEq

namespace Fault

/-- The name of a class. -/
def name : Fault → String
  | badRequest => "BAD_REQUEST"
  | notImplemented => "NOT_IMPLEMENTED"
  | notFound => "NOT_FOUND"
  | forbidden => "FORBIDDEN"
  | internal => "INTERNAL"

/-- The status that answers a request which failed so. -/
def status : Fault → Nat
  | badRequest => 400
  | notImplemented => 501
  | notFound => 404
  | forbidden => 403
  | internal => 500

end Fault

/-- Why an operation failed. -/
inductive Failure where
  | badRequest (reason : String)
  | unknownKind (kind : String)
  | missingValue (metric : String)
  | invalidSignature (metric : String)
  | unsigned
  | digest (reason : String)
  | unreadable (kind raw : String)
  | kindMismatch (metric expected actual : String)
  | notFound (kind metric : String)
  | forbidden (reason : String)
  | emptyAddress
  | unexpectedStatus (status : Nat) (body : String)
  | transport (reason : String)
  | storage (reason : String)
  | internal (reason : String)
  deriving DecidableEq

namespace Failure

/-- The wording of a failure. -/
def message : Failure → String
  | badRequest reason => "bad request: " ++ reason
  | unknownKind kind => "unknown metric type: " ++ kind
  | missingValue metric => "missing value for metric " ++ metric
  | invalidSignature metric => "invalid signature for metric " ++ metric
  | unsigned => "signing key is not initialized"
  | digest reason => "digest failed: " ++ reason
  | unreadable kind raw => "cannot parse " ++ kind ++ " value " ++ Text.quoted raw
  | kindMismatch metric expected actual =>
    "metric " ++ metric ++ " is a " ++ actual ++ ", not a " ++ expected
  | notFound kind metric => "metric not found: " ++ kind ++ "/" ++ metric
  | forbidden reason => "forbidden: " ++ reason
  | emptyAddress => "server url is empty"
  | unexpectedStatus status body => "unexpected status " ++ natText status ++ ": " ++ body
  | transport reason => "transport: " ++ reason
  | storage reason => "storage: " ++ reason
  | internal reason => "internal: " ++ reason

/-- The class of a failure. -/
def fault : Failure → Fault
  | badRequest _ | missingValue _ | invalidSignature _ | unreadable .. | kindMismatch .. =>
    .badRequest
  | unknownKind _ => .notImplemented
  | notFound .. => .notFound
  | forbidden _ => .forbidden
  | unsigned | digest _ | emptyAddress | unexpectedStatus .. | transport _ | storage _ |
    internal _ => .internal

end Failure

/-- The outcome of an operation that may fail. -/
abbrev Outcome (α : Type) := Except Failure α

end MetricRelay
