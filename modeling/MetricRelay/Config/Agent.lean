import MetricRelay.Address.Ip
import MetricRelay.Config.Basic
import MetricRelay.Text.Blank

/-!
# Configurations of the agent

Main definitions:

- `Config.Agent`: whom the agent sends to, how often, and how much at a time.
- `Config.Agent.check`: the values that are refused, in the order in which they are looked at.
- `Config.Agent.parse`.
-/

namespace MetricRelay.Config

open Yaml (Document Read)

/-- A configuration of the agent.  Intervals are in seconds, the timeout in milliseconds. -/
structure Agent where
  version : Nat
  serverAddress : String
  pollInterval : Nat
  reportInterval : Nat
  batchSize : Nat
  pushTimeout : Nat
  realIp : Option String
  key : Option String
  deriving DecidableEq

namespace Agent

/-- What is not stated in a configuration. -/
def default : Agent :=
  { version := 1
    serverAddress := "localhost:8080"
    pollInterval := 2
    reportInterval := 10
    batchSize := 100
    pushTimeout := 5000
    realIp := none
    key := none }

/-- The configuration in a document. -/
def ofDocument (d : Document) : Read Agent := do
  let top ← d.fields ["version", "agent", "signing"] d.root
  let agent ← d.fieldsOf top "agent"
    ["server_url", "poll_interval_secs", "report_interval_secs", "batch_size", "push_timeout_ms",
      "real_ip"]
  let number (name : String) (default : Nat) := agent.orElse name default (d.natural greatestLong)
  return {
    version := ← readVersion d top
    serverAddress := ← agent.orElse "server_url" default.serverAddress d.text
    pollInterval := ← number "poll_interval_secs" default.pollInterval
    reportInterval := ← number "report_interval_secs" default.reportInterval
    batchSize := ← number "batch_size" default.batchSize
    pushTimeout := ← number "push_timeout_ms" default.pushTimeout
    realIp := ← agent.orElse "real_ip" default.realIp d.optionalText
    key := ← readKey d top }

/-- Refuse a number outside its range. -/
def requireRange (name : String) (least greatest n : Nat) : Outcome Unit :=
  require (least ≤ n && n ≤ greatest)
    ("agent." ++ name ++ " must be between " ++ natText least ++ " and " ++ natText greatest)

/-- Check the values of a configuration. -/
def check (c : Agent) : Outcome Unit := do
  checkVersion c.version
  if Text.isBlankText c.serverAddress then throw .emptyAddress
  requireRange "poll_interval_secs" 1 3600 c.pollInterval
  requireRange "report_interval_secs" 1 3600 c.reportInterval
  requireRange "batch_size" 1 10000 c.batchSize
  requireRange "push_timeout_ms" 100 600000 c.pushTimeout
  match c.realIp with
  | some ip =>
    require (Ip.parse? ip).isSome ("agent.real_ip " ++ Text.quoted ip ++ " is not an IP address")
  | none => pure ()

/-- The configuration that a text states. -/
def parse (text : String) : Outcome Agent := read ofDocument check text

end Agent

end MetricRelay.Config
