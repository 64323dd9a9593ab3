import MetricRelay.Failure
import MetricRelay.Text.Split
import MetricRelay.Text.Utf8

/-!
# Requests and responses

Main definitions:

- `Request` and `Response`.
- `Request.path`: the part of an address that says what is asked for.
- `Request.header?`: the first header of a name.
-/

namespace MetricRelay.Http

open Utf8 (Bytes)

/-- A request. -/
structure Request where
  method : String
  address : String
  headers : List (String × String)
  body : Bytes
  deriving DecidableEq

/-- A response.  If the method of the request is not allowed, it says which ones are. -/
structure Response where
  status : Nat
  contentType : Option String
  body : String
  allow : Option (List String)
  deriving DecidableEq

namespace Request

/-- What follows the host of an address that starts with a scheme and a host. -/
def afterHost : List Char → Option (List Char)
  | ':' :: '/' :: '/' :: r => some (r.dropWhile fun c => c ≠ '/' && c ≠ '?' && c ≠ '#')
  | '/' :: _ => none
  | _ :: r => afterHost r
  | [] => none

/-- The path of the address of a request, without the query and the fragment. -/
def path (r : Request) : String :=
  let s := r.address.toList
  let s := if s.head? = some '/' then s else (afterHost s).getD s
  let path := s.takeWhile fun c => c ≠ '?' && c ≠ '#'
  if path.isEmpty then "/" else String.ofList path

/-- An ASCII letter in lower case. -/
def lower (c : Char) : Char :=
  if 'A' ≤ c && c ≤ 'Z' then Char.ofNat (c.toNat + 0x20) else c

/-- Whether two names are the same but for the case of their letters. -/
def sameName (a b : String) : Bool := a.toList.map lower = b.toList.map lower

/-- The first header of a name. -/
def header? (r : Request) (name : String) : Option String :=
  (r.headers.find? fun x => sameName x.1 name).map (·.2)

end Request

namespace Response

/-- The type of a plain text. -/
def plain : String := "text/plain; charset=utf-8"

/-- The type of a page. -/
def page : String := "text/html; charset=utf-8"

/-- The type of a JSON text. -/
def json : String := "application/json"

/-- A response without content. -/
def bare (status : Nat) : Response := ⟨status, none, "", none⟩

/-- A response with content of some type. -/
def ok (contentType body : String) : Response := ⟨200, some contentType, body, none⟩

/-- A response that tells why something went wrong. -/
def told (status : Nat) (why : String) : Response := ⟨status, some plain, why, none⟩

/-- The response to a request that failed. -/
def failure (e : Failure) : Response := told e.fault.status e.message

/-- The response for an outcome. -/
def ofOutcome {α : Type} (result : Outcome α) (ok : α → Response) : Response :=
  match result with
  | .ok x => ok x
  | .error e => failure e

/-- The response without its content. -/
def head (r : Response) : Response := { r with body := "" }

end Response

end MetricRelay.Http
