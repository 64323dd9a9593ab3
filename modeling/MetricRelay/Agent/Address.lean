import MetricRelay.Failure
import MetricRelay.Text.Blank

/-!
# Addresses of a server

An agent is told where its server is, with or without a scheme.  Lists of updates go to one fixed
place there.

Main definition:

- `updatesAddress`: the place for lists of updates on a server.
-/

namespace MetricRelay.Agent

/-- Whether a text holds a mark that ends a scheme. -/
def hasScheme : List Char → Bool
  | ':' :: '/' :: '/' :: _ => true
  | _ :: r => hasScheme r
  | [] => false

/-- The place on a server to which lists of updates are sent. -/
def updatesPlace : List Char := "/updates".toList

/-- An address with a scheme, without blanks around it and without slashes at its end. -/
def base (s : List Char) : List Char :=
  let s := if hasScheme s then s else "http://".toList ++ s
  (s.reverse.dropWhile (· = '/')).reverse

/-- The place for lists of updates on a server. -/
def updatesAddress (server : String) : Outcome String :=
  let s := Text.trim server.toList
  if s.isEmpty then .error .emptyAddress
  else .ok (String.ofList (base s ++ updatesPlace))

end MetricRelay.Agent
