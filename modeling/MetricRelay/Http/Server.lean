import MetricRelay.Config.Server
import MetricRelay.Http.Route
import MetricRelay.Service
import MetricRelay.Store.Backed

/-!
# The server

The server answers requests by its service.  If it only serves a subnet, every request is checked
first: who asks is what the first header `X-Real-IP` says.

Main definitions:

- `Server`, `Server.build` and `Server.withBackup`.
- `Server.refusal?`: why a request is refused, if it is.
- `Server.answer`: the response to a request.
-/

namespace MetricRelay

open Http (Request Response Target)

/-- A server: its configuration, its service, and the subnet that it serves. -/
structure Server where
  config : Config.Server
  service : Service Backed
  subnet : Option Subnet

namespace Server

/-! ## Building -/

/-- The subnet of a configuration, if it has one. -/
def subnetOf (config : Config.Server) : Outcome (Option Subnet) :=
  match config.trustedSubnet with
  | none => .ok none
  | some block => (Subnet.parse block).map some

/-- The server of a configuration over a given backup. -/
def withBackup (config : Config.Server) (backup : Store) : Outcome Server := do
  let subnet ← subnetOf config
  let store := Backed.«over» backup (.ofInterval config.storeInterval)
  return ⟨config, ⟨.ofText? config.key, store⟩, subnet⟩

/-- The backup of a configuration: a database before a file, and nothing without both. -/
def backupOf (config : Config.Server) (disk : Disk) : Outcome Store × Disk :=
  match config.databaseName, config.filePath with
  | some name, _ =>
    let (result, disk) := Database.connect disk name
    (result.map .database, disk)
  | none, some path => (.ok (.file ⟨path⟩), disk)
  | none, none => (.ok .disabled, disk)

/-- The server of a configuration. -/
def build (config : Config.Server) (host : Host) : Outcome Server × Host :=
  let (backup, disk) := backupOf config host.disk
  (backup >>= withBackup config, { host with disk := disk })

/-- The store of a server. -/
def store (s : Server) : Backed := s.service.store

/-- The server with another store. -/
def withStore (s : Server) (store : Backed) : Server :=
  { s with service := { s.service with store := store } }

/-- Refresh the backup. -/
def createBackup (s : Server) (host : Host) : Outcome Unit × Server × Host :=
  let (result, store, host) := s.store.createBackup host
  (result, s.withStore store, host)

/-- Load the content of the backup. -/
def restoreFromBackup (s : Server) (host : Host) : Outcome Unit × Server × Host :=
  let (result, store, host) := s.store.restoreFromBackup host
  (result, s.withStore store, host)

/-! ## Admission -/

/-- A character that a header may hold as text. -/
def isHeaderText (c : Char) : Bool := c = '\t' || (' ' ≤ c && c ≤ '~')

/-- Who asks, if the header for it is there and a text. -/
def realIp? (r : Request) : Option String :=
  (r.header? "X-Real-IP").filter fun value => value.toList.all isHeaderText

/-- Why a request is refused: there is a subnet to serve, and who asks is outside or unknown. -/
def refusal? (s : Server) (r : Request) : Option Failure :=
  match s.subnet with
  | none => none
  | some subnet =>
    match realIp? r with
    | none => some (.forbidden "missing X-Real-IP header")
    | some ip =>
      if subnet.admits ip then none else some (.forbidden (ip ++ " is outside the trusted subnet"))

/-! ## Targets -/

/-- The greatest body that is read. -/
def greatestBody : Nat := 2097152

/-- The response to a body that is not read. -/
def tooLarge : Response :=
  .told 413 "Failed to buffer the request body: length limit exceeded"

/-- Take updates in and answer with some response for what was stored. -/
def update (s : Server) (host : Host) (messages : Outcome (List Message))
    (ok : List Message → Response) : Response × Server × Host :=
  match messages with
  | .error e => (.failure e, s, host)
  | .ok messages =>
    let (result, service, host) := s.service.update host messages
    (.ofOutcome result ok, { s with service := service }, host)

/-- The response that holds the only message of an answer. -/
def onlyMessage : List Message → Response
  | [] => .failure (.internal "update returned nothing")
  | m :: ms => .ok Response.json (String.ofList (((m :: ms).getLast?.getD m).json))

/-- The response to a request for a target by one of its methods. -/
def serve (s : Server) (host : Host) (target : Target) (body : Utf8.Bytes) :
    Response × Server × Host :=
  match target with
  | .report =>
    let (result, host) := s.service.report host
    (.ofOutcome result (.ok Response.page), s, host)
  | .ping => (.ofOutcome (s.service.ping host) fun _ => .ok Response.plain "ok", s, host)
  | .updatePath type name value =>
    match do
      let type ← Http.parameter "mtype" type
      let name ← Http.parameter "name" name
      let value ← Http.parameter "value" value
      return (type, name, value) with
    | .error bad => (Http.badParameter bad, s, host)
    | .ok (type, name, value) =>
      s.update host ((Message.decodePath type name value).map fun m => [m])
        fun _ => .ok Response.plain "ok"
  | .valuePath type name =>
    match do
      let type ← Http.parameter "mtype" type
      let name ← Http.parameter "name" name
      return (type, name) with
    | .error bad => (Http.badParameter bad, s, host)
    | .ok (type, name) =>
      let (result, host) := s.service.lookup host (.query name type)
      (.ofOutcome result fun h => .ok Response.plain (host.heap.get h).value.canonical, s, host)
  | .updateOne =>
    if greatestBody < body.length then (tooLarge, s, host)
    else s.update host ((Message.decodeOne body).map fun m => [m]) onlyMessage
  | .updateBatch =>
    if greatestBody < body.length then (tooLarge, s, host)
    else
      s.update host (Message.decodeBatch body) fun ms =>
        .ok Response.json (String.ofList (Message.jsonList ms))
  | .valueOne =>
    if greatestBody < body.length then (tooLarge, s, host)
    else
      match Message.decodeOne body with
      | .error e => (.failure e, s, host)
      | .ok query =>
        let (result, host) := s.service.lookupMessage host query
        (.ofOutcome result fun m => .ok Response.json (String.ofList m.json), s, host)

/-- The response to a request.  Nothing is done for a request that is refused, and a response to
`HEAD` on a target that is read has no content. -/
def answer (s : Server) (host : Host) (r : Request) : Response × Server × Host :=
  match Target.ofPath? r.path with
  | none =>
    match s.refusal? r with
    | some e => (.failure e, s, host)
    | none => (.bare 404, s, host)
  | some target =>
    if target.allowed.contains r.method then
      let (response, s, host) :=
        match s.refusal? r with
        | some e => (Response.failure e, s, host)
        | none => s.serve host target r.body
      (if r.method = "HEAD" then response.head else response, s, host)
    else
      let response :=
        match s.refusal? r with
        | some e => Response.failure e
        | none => .bare 405
      ({ response with allow := some target.allowed }, s, host)

end Server

end MetricRelay
