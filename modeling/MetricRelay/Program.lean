import MetricRelay.Agent.Run
import MetricRelay.Config.File
import MetricRelay.Http.Server

/-!
# The programs

The server reads its configuration, opens its backup and loads it, serves until it is told to stop,
and writes the backup a last time.  Only a backup that cannot be loaded does not keep it from
serving.  The agent reads its configuration and runs until it is told to stop.

Main definitions:

- `Server.start` and `Server.stop`: what is done before the first request and after the last.
- `BackupTask` and `Server.backupTask`: what refreshes the backup while a server serves.
- `Program.serve` and `Program.finish`: a server up to its first request, and after its last.
- `Program.server` and `Program.agent`: a program that is stopped as soon as it serves.
-/

namespace MetricRelay

/-! ## Log -/

/-- How serious a line of the log is. -/
inductive Level where
  | warning
  | error
  deriving DecidableEq

/-- A line of the log. -/
structure LogLine where
  level : Level
  message : String
  fields : List (String × String)
  deriving DecidableEq

namespace LogLine

/-- The text of a line. -/
def text (l : LogLine) : String :=
  let level := match l.level with
    | .warning => "WARN "
    | .error => "ERROR "
  l.fields.foldl (fun s x => s ++ " " ++ x.1 ++ "=" ++ x.2) (level ++ l.message)

end LogLine

/-! ## Sockets -/

/-- Whether a machine on its own has an address: it has all of the older family, also where one of
the newer family wraps them, and of the newer family the one that stands for all. -/
def Ip.isOwn : Ip → Bool
  | .v4 _ => true
  | .v6 a => a = 0 || (Ip.unmapped? a).isSome

/-- The numbers of sockets that are kept for the system; zero asks for any other number. -/
def Endpoint.isReserved (e : Endpoint) : Bool := 0 < e.socket && e.socket < 1024

/-- Listen on a socket, which has to be at an address of the machine. -/
def Endpoint.listen (e : Endpoint) : Outcome Unit :=
  let failed (why : String) : Outcome Unit :=
    .error (.internal ("bind " ++ e.text ++ " failed: " ++ why))
  if !e.ip.isOwn then failed "this machine has no such address"
  else if e.isReserved then failed "this socket is kept for the system"
  else .ok ()

/-! ## The server -/

/-- The task that refreshes the backup of a server: it is not wanted, it waits for its ticks, or it
has broken down, since no ticker goes on without a period. -/
inductive BackupTask where
  | unwanted
  | waiting (cycle : Cycle)
  | brokenDown

namespace Server

/-- The task that refreshes the backup, which is wanted unless every write is backed up. -/
def backupTask (s : Server) : BackupTask :=
  match s.store.mode with
  | .synchronous => .unwanted
  | .asynchronous =>
    if h : 0 < s.config.storeInterval * 1000 then .waiting (Backed.backups _ h) else .brokenDown

/-- Load the backup, if that is wanted.  If it fails, the server starts empty and says so. -/
def load (s : Server) (host : Host) : List LogLine × Server × Host :=
  if s.config.restore then
    match s.restoreFromBackup host with
    | (.ok (), s, host) => ([], s, host)
    | (.error e, s, host) =>
      ([⟨.warning, "restore from backup failed, starting empty", [("error", e.message)]⟩], s, host)
  else ([], s, host)

/-- The server of a configuration, ready for the first request. -/
def start (config : Config.Server) (host : Host) : Outcome Server × List LogLine × Host :=
  match build config host with
  | (.error e, host) => (.error e, [], host)
  | (.ok s, host) =>
    let (log, s, host) := s.load host
    (.ok s, log, host)

/-- What is done after the last request: unless every write was backed up, all of them are. -/
def stop (s : Server) (host : Host) : Outcome Unit × Server × Host :=
  match s.store.mode with
  | .synchronous => (.ok (), s, host)
  | .asynchronous => s.createBackup host

end Server

/-! ## Programs -/

/-- How a program ended: whether it came to serve, whether it failed, what it logged, and the host
as it left it. -/
structure Ending where
  served : Bool
  failed : Bool
  log : List LogLine
  host : Host

namespace Ending

/-- The code by which a program tells whether it failed. -/
def exitCode (e : Ending) : Nat := if e.failed then 1 else 0

end Ending

namespace Program

/-- The configuration that the server reads if it is given none. -/
def serverConfig : String := "metrix-server.yaml"

/-- The configuration that the agent reads if it is given none. -/
def agentConfig : String := "metrix-agent.yaml"

/-- The end of a server that failed. -/
def serverFailed (served : Bool) (log : List LogLine) (host : Host) (e : Failure) : Ending :=
  let line : LogLine := ⟨.error, "metrix-server stopped with error", [("error", e.message)]⟩
  ⟨served, true, log ++ [line], host⟩

/-- Where a server listens. -/
def listenOn (config : Config.Server) : Outcome Endpoint :=
  match Endpoint.parse? config.listen with
  | some e => .ok e
  | none => .error (.badRequest "server.listen: invalid socket address syntax")

/-- A server that serves: what it is, the host, what it has logged so far, and the task that was
started beside it. -/
structure Serving where
  server : Server
  log : List LogLine
  host : Host
  backups : BackupTask

/-- The server up to the moment at which it serves, or its end if it does not come so far. -/
def serve (path : Option String) (host : Host) : Except Ending Serving :=
  match do
    let config ← Config.load Config.Server.parse host.disk (path.getD serverConfig)
    return (config, ← listenOn config) with
  | .error e => .error (serverFailed false [] host e)
  | .ok (config, endpoint) =>
    match Server.start config host with
    | (.error e, log, host) => .error (serverFailed false log host e)
    | (.ok s, log, host) =>
      match endpoint.listen with
      | .error e => .error (serverFailed false log host e)
      | .ok () => .ok ⟨s, log, host, s.backupTask⟩

/-- The end of a server that is stopped. -/
def finish (s : Serving) : Ending :=
  match s.server.stop s.host with
  | (.error e, _, host) => serverFailed true s.log host e
  | (.ok (), _, host) => ⟨true, false, s.log, host⟩

/-- The server, stopped as soon as it serves. -/
def server (path : Option String) (host : Host) : Ending :=
  match serve path host with
  | .error e => e
  | .ok s => finish s

/-- The agent, stopped as soon as it runs. -/
def agent (path : Option String) (host : Host) : Ending :=
  let path := path.getD agentConfig
  match Config.load Config.Agent.parse host.disk path >>= Config.Agent.pusher with
  | .error e =>
    ⟨false, true,
      [⟨.error, "metrix-agent failed to start", [("error", e.message), ("config", path)]⟩], host⟩
  | .ok _ => ⟨true, false, [], host⟩

end Program

end MetricRelay
