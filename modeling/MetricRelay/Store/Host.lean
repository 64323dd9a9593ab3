import MetricRelay.Disk.Basic
import MetricRelay.Metric.Cell

/-!
# Hosts

What a running process has besides its own state: the cells of its metrics, and the disk that it
shares with the processes before and after it.

Main definitions:

- `Host` and `Host.allocAll`.
- `Host.restarted`: the host of the next process, which finds the disk and no cells.
-/

namespace MetricRelay

/-- The cells and the disk that a process works with. -/
structure Host where
  heap : Heap
  disk : Disk

namespace Host

/-- A host without cells. -/
def ofDisk (disk : Disk) : Host := ⟨.empty, disk⟩

/-- The host of the next process. -/
def restarted (host : Host) : Host := ofDisk host.disk

/-- The metrics that some handles show. -/
def getAll (host : Host) (hs : List Handle) : List Metric := hs.map host.heap.get

/-- A fresh cell for each metric. -/
def allocAll (host : Host) (ms : List Metric) : List Handle × Host :=
  let (hs, heap) := host.heap.allocAll ms
  (hs, { host with heap := heap })

/-- A fresh cell for a metric. -/
def alloc (host : Host) (m : Metric) : Handle × Host :=
  let (h, heap) := host.heap.alloc m
  (h, { host with heap := heap })

end Host

end MetricRelay
