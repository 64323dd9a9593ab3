import MetricRelay.Console

/-!
# The command line

`agent` checks a configuration of the agent, and anything else runs a server.  The configuration
comes first on the standard input, up to a line of three points; the lines after it are requests to
the server.  Responses go to the standard output and the log to the standard error.
-/

namespace MetricRelay.CommandLine

/-- Read a configuration, up to the line that ends it. -/
def readConfig (input : IO.FS.Stream) : IO String := do
  let mut text := ""
  repeat
    let line ← input.getLine
    if line.isEmpty || Console.endsDocument line then break
    text := text ++ line
  return text

/-- Answer requests until there are no more. -/
def answerAll (input : IO.FS.Stream) (serving : Program.Serving) : IO Program.Serving := do
  let mut serving := serving
  repeat
    let line ← input.getLine
    if line.isEmpty then break
    let (answer, next) := Console.step serving line
    serving := next
    IO.println answer
  return serving

/-- Show the log of a program that has ended. -/
def report (ending : Ending) : IO UInt32 := do
  for line in ending.log do
    IO.eprintln line.text
  return ending.exitCode.toUInt32

end MetricRelay.CommandLine

open MetricRelay in
/-- Run a program. -/
def main (args : List String) : IO UInt32 := do
  let input ← IO.getStdin
  let config ← CommandLine.readConfig input
  match args with
  | ["agent"] => CommandLine.report (Program.agent none (Console.host Program.agentConfig config))
  | _ =>
    match Program.serve none (Console.host Program.serverConfig config) with
    | .error ending => CommandLine.report ending
    | .ok serving =>
      CommandLine.report (Program.finish (← CommandLine.answerAll input serving))
