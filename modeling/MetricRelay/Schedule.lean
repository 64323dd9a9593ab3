/-!
# Schedules

Something that is done once in every period is driven by a ticker.  If the ticker comes late, it
either makes up at once for every period that was missed, or starts a new period from the moment at
which it was found to be late.  A task that is running delays the next tick until it is done, and a
task is stopped only between two runs.

Main definitions:

- `Ticker` and `Ticker.next`.
- `Cycle` and `Cycle.run`: everything that is due at some moment.

Main results:

- `Ticker.due_lt_due_next`: the next tick is later.
-/

namespace MetricRelay

/-- What happens to ticks that were missed. -/
inductive Lateness where
  | makeUp
  | startAnew
  deriving DecidableEq

/-- When the next tick is due, in milliseconds, and how it goes on from there. -/
structure Ticker where
  due : Nat
  period : Nat
  positive : 0 < period
  lateness : Lateness

namespace Ticker

/-- A ticker is late if it comes more than this many milliseconds after it was due. -/
def tolerance : Nat := 5

/-- The ticker after a tick at some moment. -/
def next (t : Ticker) (now : Nat) : Ticker :=
  match t.lateness with
  | .makeUp => { t with due := t.due + t.period }
  | .startAnew =>
    if t.due + tolerance < now then { t with due := now + t.period }
    else { t with due := t.due + t.period }

/-- The next tick is later. -/
theorem due_lt_due_next (t : Ticker) (now : Nat) : t.due < (t.next now).due := by
  have := t.positive
  unfold next
  split
  · show t.due < t.due + t.period
    omega
  · split
    · rename_i h
      show t.due < now + t.period
      unfold tolerance at h
      omega
    · show t.due < t.due + t.period
      omega

end Ticker

/-- A task that is done at every tick: the ticker, the moment until which the task is running, and
whether it was stopped. -/
structure Cycle where
  ticker : Ticker
  busyUntil : Nat
  stopped : Bool

namespace Cycle

/-- A task whose first tick is due at some moment. -/
def starting (due period : Nat) (positive : 0 < period) (lateness : Lateness) : Cycle :=
  ⟨⟨due, period, positive, lateness⟩, 0, false⟩

/-- Everything that is due at some moment.  The task says how long it takes; while it is running
nothing else is done, and once it is to stop it is not started again. -/
def run {σ : Type} (task : σ → Nat × σ) (stop : Bool) (now : Nat) (c : Cycle) (s : σ) : Cycle × σ :=
  if c.stopped || now < c.busyUntil then (c, s)
  else if stop then ({ c with stopped := true }, s)
  else if now < c.ticker.due then (c, s)
  else
    let (duration, s) := task s
    run task stop now { c with ticker := c.ticker.next now, busyUntil := now + duration } s
termination_by now + 1 - c.ticker.due
decreasing_by
  have := c.ticker.due_lt_due_next now
  omega

end Cycle

end MetricRelay
