import MetricRelay.Agent.Collector
import MetricRelay.Agent.Pusher
import MetricRelay.Config.Agent
import MetricRelay.Schedule

/-!
# Runs of the agent

The agent collects metrics in one period and pushes them in another.  It collects at once and
pushes for the first time after a whole period.  It is stopped only between two runs of a task.

Main definitions:

- `AgentState`: what an agent works with while it runs.
- `AgentRun` and `AgentRun.run`: its two tasks, and everything that is due at some moment.
- `Config.Agent.pusher`: how the agent of a configuration pushes.
-/

namespace MetricRelay

open Agent (Collector Machine Network Push Pusher)

/-- An agent while it runs: the cells, who refreshes them, what is seen of the machine and of the
network, how metrics are pushed, and which requests were sent. -/
structure AgentState where
  heap : Heap
  collector : Collector
  shown : Machine
  network : Network
  pusher : Pusher
  timeout : Nat
  sent : List Push

namespace AgentState

/-- Refresh all metrics. -/
def collect (a : AgentState) : AgentState :=
  let (collector, heap) := a.collector.updateAll a.shown a.heap
  { a with collector := collector, heap := heap }

/-- Push all metrics, and say how long it takes. -/
def push (a : AgentState) : Nat × AgentState :=
  let pushed := a.pusher.push a.timeout a.heap a.network a.collector.handles
  (pushed.duration,
    { a with heap := pushed.heap, network := pushed.network, sent := a.sent ++ pushed.sent })

end AgentState

/-- The two tasks of an agent; one that only pushes has no first task. -/
structure AgentRun where
  state : AgentState
  collecting : Option Cycle
  pushing : Cycle

namespace AgentRun

/-- A run that collects and pushes in two periods, given in milliseconds. -/
def starting (state : AgentState) (collectPeriod pushPeriod : Nat) (h : 0 < collectPeriod)
    (h' : 0 < pushPeriod) : AgentRun :=
  ⟨state, some (.starting 0 collectPeriod h .startAnew),
    .starting pushPeriod pushPeriod h' .startAnew⟩

/-- Everything that is due at some moment. -/
def run (stop : Bool) (now : Nat) (r : AgentRun) : AgentRun :=
  let (collecting, state) :=
    match r.collecting with
    | none => (none, r.state)
    | some c =>
      let (c, state) := c.run (fun a => (0, a.collect)) stop now r.state
      (some c, state)
  let (pushing, state) := r.pushing.run AgentState.push stop now state
  ⟨state, collecting, pushing⟩

/-- Whether all tasks were stopped. -/
def stopped (r : AgentRun) : Bool := r.collecting.all (·.stopped) && r.pushing.stopped

end AgentRun

/-- How the agent of a configuration pushes its metrics. -/
def Config.Agent.pusher (c : Config.Agent) : Outcome Pusher :=
  Pusher.make c.serverAddress (.ofText? c.key) c.batchSize c.realIp

end MetricRelay
