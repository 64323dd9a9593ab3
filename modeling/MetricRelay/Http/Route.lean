import MetricRelay.Http.Message
import MetricRelay.Text.Percent

/-!
# Routes

A path is matched part by part against fixed names and parameters.  The last parameter of a path
may not be empty; parameters before it may.

Main definitions:

- `Target`: what can be asked for.
- `Target.ofPath?`: what a path asks for.
- `Target.isRead`: whether it is asked for by reading or by sending.
-/

namespace MetricRelay.Http

/-- What can be asked for.  Parameters are kept as they stand in the path. -/
inductive Target where
  | report
  | ping
  | updatePath (type name value : String)
  | updateOne
  | updateBatch
  | valuePath (type name : String)
  | valueOne
  deriving DecidableEq

namespace Target

/-- What a path asks for. -/
def ofPath? (path : String) : Option Target :=
  match (Text.splitAt '/' path.toList).map String.ofList with
  | ["", ""] => some report
  | ["", "metrics"] => some report
  | ["", "ping"] => some ping
  | ["", "update"] => some updateOne
  | ["", "updates"] => some updateBatch
  | ["", "value"] => some valueOne
  | ["", "update", type, name, value] =>
    if value = "" then none else some (updatePath type name value)
  | ["", "value", type, name] => if name = "" then none else some (valuePath type name)
  | _ => none

/-- Whether a target is asked for by reading it; the others take what is sent to them. -/
def isRead : Target → Bool
  | report | ping | valuePath .. => true
  | updatePath .. | updateOne | updateBatch | valueOne => false

/-- The methods by which a target may be asked for. -/
def allowed (t : Target) : List String := if t.isRead then ["GET", "HEAD"] else ["POST"]

end Target

/-- The text of a parameter, if its bytes form one. -/
def parameter (name raw : String) : Except String String :=
  match Percent.decode? (Utf8.encode raw) with
  | some text => .ok text
  | none => .error name

/-- The response to a path with a parameter that is no text. -/
def badParameter (name : String) : Response :=
  .told 400 ("Invalid URL: Invalid UTF-8 in `" ++ name ++ "`")

end MetricRelay.Http
