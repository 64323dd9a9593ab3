import MetricRelay.Address.Subnet
import MetricRelay.Config.Basic
import MetricRelay.Text.Blank

/-!
# Configurations of the server

Main definitions:

- `Config.Server`: where the server listens, whom it serves, and how it keeps its metrics.
- `Config.Server.check`: the values that are refused, in the order in which they are looked at.
- `Config.Server.parse`.
-/

namespace MetricRelay.Config

open Yaml (Document Read)

/-- A configuration of the server.  Metrics are backed up every `storeInterval` seconds, or after
every write if that is zero. -/
structure Server where
  version : Nat
  listen : String
  trustedSubnet : Option String
  storeInterval : Nat
  filePath : Option String
  databaseName : Option String
  restore : Bool
  key : Option String
  deriving DecidableEq

namespace Server

/-- What is not stated in a configuration. -/
def default : Server :=
  { version := 1
    listen := "0.0.0.0:8080"
    trustedSubnet := none
    storeInterval := 300
    filePath := none
    databaseName := none
    restore := true
    key := none }

/-- The configuration in a document. -/
def ofDocument (d : Document) : Read Server := do
  let top ← d.fields ["version", "server", "storage", "signing"] d.root
  let server ← d.fieldsOf top "server" ["listen", "trusted_subnet"]
  let storage ← d.fieldsOf top "storage"
    ["store_interval_secs", "file_storage_path", "database_dsn", "restore"]
  return {
    version := ← readVersion d top
    listen := ← server.orElse "listen" default.listen d.text
    trustedSubnet := ← server.orElse "trusted_subnet" default.trustedSubnet d.optionalText
    storeInterval :=
      ← storage.orElse "store_interval_secs" default.storeInterval (d.natural greatestLong)
    filePath := ← storage.orElse "file_storage_path" default.filePath d.optionalText
    databaseName := ← storage.orElse "database_dsn" default.databaseName d.optionalText
    restore := ← storage.orElse "restore" default.restore d.boolean
    key := ← readKey d top }

/-- The reason for which an address cannot be listened on. -/
def listenReason (listen : String) : String :=
  "server.listen " ++ Text.quoted listen ++
    " is not a socket address: invalid socket address syntax"

/-- Whether an optional text is blank. -/
def isBlank (text : Option String) : Bool := text.any Text.isBlankText

/-- Check the values of a configuration. -/
def check (c : Server) : Outcome Unit := do
  checkVersion c.version
  require (Endpoint.parse? c.listen).isSome (listenReason c.listen)
  match c.trustedSubnet with
  | some block => discard (Subnet.parse block)
  | none => pure ()
  require (c.storeInterval ≤ 86400) "storage.store_interval_secs must be between 0 and 86400"
  require (!isBlank c.databaseName) "storage.database_dsn must not be empty"
  require (!isBlank c.filePath) "storage.file_storage_path must not be empty"

/-- The configuration that a text states. -/
def parse (text : String) : Outcome Server := read ofDocument check text

end Server

end MetricRelay.Config
