import MetricRelay.Metric.Cell
import MetricRelay.Number.Decimal

/-!
# Collecting metrics

A provider owns some cells and refreshes them from what the machine shows.  The collector has all
providers refresh their cells, one after the other; one that fails does not keep the others from it.

Main definitions:

- `Machine`: what a machine shows at some moment.
- `Provider`: a process, a machine, or a single metric.
- `Collector.updateAll` and `Collector.handles`.
-/

namespace MetricRelay.Agent

/-- What a machine shows at some moment: the figures of the process if it can be found, a random
number, the memory in total and free, and the use of each processor. -/
structure Machine where
  process : Option (List Binary64)
  random : Binary64
  totalMemory : Binary64
  freeMemory : Binary64
  processors : List Binary64

/-- A provider of metrics.  A single one is refreshed by a value for each call, and fails where
there is none. -/
inductive Provider where
  | process (figures : List Handle) (pollCount random : Handle)
  | machine (total free : Handle) (processors : List Handle)
  | single (cell : Handle) (calls : Nat) (step : Nat → Option Value)

namespace Provider

/-- The name of a provider. -/
def name : Provider → String
  | process .. => "runtime"
  | machine .. => "system"
  | single .. => "single"

/-- The names of the figures of a process. -/
def figureNames : List String :=
  ["ResidentMemory", "VirtualMemory", "ProcessCPU", "DiskReadBytes", "DiskWrittenBytes", "RunTime"]

/-- A gauge that was never read. -/
def gauge (name : String) : Metric := ⟨name, .reading (.zero false)⟩

/-- The gauge of a processor; processors are numbered from one. -/
def processorGauge (index : Nat) : Metric := gauge ("CPUutilization" ++ natText (index + 1))

/-- The provider of the figures of a process, with a count of its updates and a random number. -/
def makeProcess (heap : Heap) : Provider × Heap :=
  let (figures, heap) := heap.allocAll (figureNames.map gauge)
  let (pollCount, heap) := heap.alloc ⟨"PollCount", .total .zero⟩
  let (random, heap) := heap.alloc (gauge "RandomValue")
  (process figures pollCount random, heap)

/-- The provider of the figures of a machine.  Its processors are found with the first update. -/
def makeMachine (heap : Heap) : Provider × Heap :=
  let (total, heap) := heap.alloc (gauge "TotalMemory")
  let (free, heap) := heap.alloc (gauge "FreeMemory")
  (machine total free [], heap)

/-- The cells of a provider. -/
def handles : Provider → List Handle
  | process figures pollCount random => figures ++ [pollCount, random]
  | machine total free processors => [total, free] ++ processors
  | single cell _ _ => [cell]

/-- Update cells one after the other, up to the first that refuses. -/
def setAll (heap : Heap) : List (Handle × Value) → Outcome Unit × Heap
  | [] => (.ok (), heap)
  | (h, v) :: r =>
    match heap.update h v with
    | (.ok _, heap) => setAll heap r
    | (.error e, heap) => (.error e, heap)

/-- A count of one. -/
def one : Value := .total (.clamp 1)

/-- Refresh the cells of a provider. -/
def update (shown : Machine) (p : Provider) (heap : Heap) : Outcome Unit × Provider × Heap :=
  match p with
  | process figures pollCount random =>
    let values := (shown.process.getD []).map .reading
    let (result, heap) :=
      setAll heap (figures.zip values ++ [(pollCount, one), (random, .reading shown.random)])
    (result, p, heap)
  | machine total free processors =>
    let news := (List.range shown.processors.length).drop processors.length
    let memory := [(total, .reading shown.totalMemory), (free, .reading shown.freeMemory)]
    match setAll heap memory with
    | (.error e, heap) => (.error e, p, heap)
    | (.ok (), heap) =>
      let (fresh, heap) := heap.allocAll (news.map processorGauge)
      let processors := processors ++ fresh
      let (result, heap) := setAll heap (processors.zip (shown.processors.map .reading))
      (result, machine total free processors, heap)
  | single cell calls step =>
    let p := single cell (calls + 1) step
    match step calls with
    | none => (.error (.internal "there is nothing to read"), p, heap)
    | some v =>
      let (result, heap) := heap.update cell v
      (result.map fun _ => (), p, heap)

end Provider

/-- The providers that are asked, in their order. -/
structure Collector where
  providers : List Provider

namespace Collector

/-- A process and the machine that it runs on. -/
def standard (heap : Heap) : Collector × Heap :=
  let (process, heap) := Provider.makeProcess heap
  let (machine, heap) := Provider.makeMachine heap
  (⟨[process, machine]⟩, heap)

/-- Refresh the cells of some providers; one that fails does not keep the others from it. -/
def updateEach (shown : Machine) (heap : Heap) : List Provider → List Provider × Heap
  | [] => ([], heap)
  | p :: ps =>
    let (_, p, heap) := p.update shown heap
    let (ps, heap) := updateEach shown heap ps
    (p :: ps, heap)

/-- Refresh the cells of all providers. -/
def updateAll (shown : Machine) (c : Collector) (heap : Heap) : Collector × Heap :=
  let (providers, heap) := updateEach shown heap c.providers
  (⟨providers⟩, heap)

/-- The cells of all providers. -/
def handles (c : Collector) : List Handle := c.providers.flatMap Provider.handles

end Collector

end MetricRelay.Agent
