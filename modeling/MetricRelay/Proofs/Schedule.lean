import Mathlib.Data.Nat.Basic
import MetricRelay.Schedule

/-!
# Cycles on a clock

On a clock that passes every moment, a task that takes no time is done exactly at its
ticks, whatever would happen to ticks that were missed, until it is stopped.

Main definitions:

- `Cycle.ticksBefore`: how many ticks there are before a moment.
- `Cycle.moments`: the moments of the first ticks.
- `Cycle.Punctual`: a task that was done at every tick so far.
- `Cycle.Timely`: a task that is stopped at some moment, and was done at every tick before.

Main results:

- `Cycle.run_map`: a task seen through a part of its state.
- `Cycle.ticksBefore_spec`: no tick is missed.
- `Cycle.Timely.run_cases`: what the next moment does to a timely task.
-/

namespace MetricRelay.Cycle

/-! ## One turn -/

section

variable {σ : Type} {task : σ → Nat × σ} {c : Cycle} {s : σ} {now : Nat}

/-- Nothing is done any more once the task is stopped. -/
theorem run_of_stopped (h : c.stopped = true) {stop : Bool} : c.run task stop now s = (c, s) := by
  rw [run, h]
  rfl

/-- A task that is not running is stopped when it is to stop. -/
theorem run_stop (hidle : c.busyUntil ≤ now) :
    c.run task true now s = ({ c with stopped := true }, s) := by
  rcases c with ⟨ticker, busyUntil, stopped⟩
  have hfree : ¬ now < busyUntil := Nat.not_lt.2 hidle
  rw [run]
  cases stopped with
  | true => simp
  | false => simp [hfree]

/-- Before its next tick nothing is done. -/
theorem run_of_lt_due (hrunning : c.stopped = false) (hidle : c.busyUntil ≤ now)
    (hearly : now < c.ticker.due) : c.run task false now s = (c, s) := by
  rw [run]
  simp [hrunning, Nat.not_lt.2 hidle, hearly]

/-- A tick that comes when it is due is followed by the next one a period later. -/
theorem next_due (t : Ticker) :
    t.next t.due = { t with due := t.due + t.period } := by
  rcases t with ⟨due, period, positive, lateness⟩
  cases lateness <;> simp [Ticker.next]

/-- At its next tick the task is done once. -/
theorem run_of_eq_due (hrunning : c.stopped = false) (hidle : c.busyUntil ≤ now)
    (hdue : c.ticker.due = now) (hinstant : (task s).1 = 0) :
    c.run task false now s =
      (⟨{ c.ticker with due := now + c.ticker.period }, now, false⟩, (task s).2) := by
  have hnext := next_due c.ticker
  rw [hdue] at hnext
  rw [run]
  simp only [hrunning, hdue, hinstant, hnext, Nat.not_lt.2 hidle, Nat.lt_irrefl, Bool.false_or,
    decide_false, Bool.false_eq_true, if_false, Nat.add_zero]
  exact run_of_lt_due rfl (Nat.le_refl now) (Nat.lt_add_of_pos_right c.ticker.positive)

/-- What a task keeps is kept however often it is done. -/
theorem run_keeps {P : σ → Prop} (htask : ∀ s, P s → P (task s).2) (stop : Bool) (now : Nat)
    (c : Cycle) (hs : P s) : P (c.run task stop now s).2 := by
  fun_induction run task stop now c s with
  | case1 c s hbusy => exact hs
  | case2 c s hbusy hstop => exact hs
  | case3 c s hbusy hstop hearly => exact hs
  | case4 c s hbusy hstop hearly duration t htaken ih =>
    have ht := htask s hs
    rw [htaken] at ht
    exact ih ht

/-- A task that acts on a part of a state alone is done as on that part. -/
theorem run_map {τ : Type} (task : σ → Nat × σ) (task' : τ → Nat × τ) (f : σ → τ)
    (htask : ∀ s, task' (f s) = ((task s).1, f (task s).2)) (stop : Bool) (now : Nat) (c : Cycle)
    (s : σ) :
    c.run task' stop now (f s) =
      ((c.run task stop now s).1, f (c.run task stop now s).2) := by
  fun_induction run task stop now c s with
  | case1 c s hbusy => rw [run, if_pos hbusy]
  | case2 c s hbusy hstop => rw [run, if_neg hbusy, if_pos hstop]
  | case3 c s hbusy hstop hearly => rw [run, if_neg hbusy, if_neg hstop, if_pos hearly]
  | case4 c s hbusy hstop hearly duration t htaken ih =>
    rw [run, if_neg hbusy, if_neg hstop, if_neg hearly, htask s, htaken]
    exact ih

end

/-! ## Ticks -/

/-- How many of the ticks at `first`, `first + period` and so on are before a moment. -/
def ticksBefore (first period n : Nat) : Nat := (n + period - 1 - first) / period

/-- The moments of some first ticks. -/
def moments (first period ticks : Nat) : List Nat :=
  (List.range ticks).map fun k => first + k * period

/-- The next moment is a period later. -/
theorem moments_succ (first period ticks : Nat) :
    moments first period (ticks + 1) = moments first period ticks ++ [first + ticks * period] := by
  simp [moments, List.range_succ]

section

variable {period : Nat} (hperiod : 0 < period) (first n : Nat)
include hperiod

/-- No tick is missed, and with the moment of the next one there is one more. -/
theorem ticksBefore_spec :
    n ≤ first + ticksBefore first period n * period ∧
      ticksBefore first period (n + 1) = ticksBefore first period n +
        if first + ticksBefore first period n * period = n then 1 else 0 := by
  unfold ticksBefore
  rcases Nat.lt_trichotomy n first with hearly | rfl | hlater
  · have hnone : (n + period - 1 - first) / period = 0 := Nat.div_eq_of_lt (by omega)
    have hstill : (n + 1 + period - 1 - first) / period = 0 := Nat.div_eq_of_lt (by omega)
    rw [hnone, hstill, Nat.zero_mul, if_neg (by omega)]
    exact ⟨by omega, rfl⟩
  · have hnone : (n + period - 1 - n) / period = 0 := Nat.div_eq_of_lt (by omega)
    have hfirst : (n + 1 + period - 1 - n) / period = 1 := by
      rw [show n + 1 + period - 1 - n = period by omega, Nat.div_self hperiod]
    rw [hnone, hfirst, Nat.zero_mul, if_pos (Nat.add_zero n)]
    exact ⟨Nat.le_refl n, rfl⟩
  · obtain ⟨m, rfl⟩ := Nat.exists_eq_add_of_lt hlater
    have hnow : first + m + 1 + period - 1 - first = m + period := by omega
    have hnext : first + m + 1 + 1 + period - 1 - first = m + 1 + period := by omega
    rw [hnow, hnext, Nat.add_div_right _ hperiod, Nat.add_div_right _ hperiod, Nat.succ_div]
    have hle : m < (m / period + 1) * period := by
      rw [Nat.mul_comm]
      exact Nat.lt_mul_div_succ m hperiod
    have htick : first + (m / period + 1) * period = first + m + 1 ↔ period ∣ m + 1 := by
      constructor
      · intro h
        exact ⟨m / period + 1, by rw [Nat.mul_comm]; omega⟩
      · intro h
        have hmul := Nat.div_mul_cancel h
        rw [Nat.succ_div, if_pos h] at hmul
        omega
    simp only [htick]
    exact ⟨by omega, by omega⟩

end

/-- A tick for each period that is over, up to a moment that is no tick. -/
theorem ticksBefore_min {period cancelled : Nat} (hcancelled : ¬ period ∣ cancelled) (n : Nat) :
    ticksBefore period period (min n cancelled) = min (n - 1) cancelled / period := by
  have hticks : ticksBefore period period (min n cancelled) = (min n cancelled - 1) / period :=
    congrArg (· / period) (by omega)
  rw [hticks]
  rcases Nat.lt_or_ge cancelled n with hafter | hbefore
  · rw [Nat.min_eq_right (Nat.le_of_lt hafter), Nat.min_eq_right (Nat.le_sub_one_of_lt hafter)]
    cases cancelled with
    | zero => exact absurd (Nat.dvd_zero period) hcancelled
    | succ m => rw [Nat.add_sub_cancel, Nat.succ_div_of_not_dvd hcancelled]
  · rw [Nat.min_eq_left hbefore, Nat.min_eq_left (Nat.le_trans (Nat.sub_le n 1) hbefore)]

/-- A tick at the start, and one for each period that is over. -/
theorem ticksBefore_zero {period cancelled : Nat} (hperiod : 0 < period)
    (hcancelled : ¬ period ∣ cancelled) :
    ticksBefore 0 period cancelled = cancelled / period + 1 := by
  cases cancelled with
  | zero => exact absurd (Nat.dvd_zero period) hcancelled
  | succ m =>
    have hsum : m + 1 + period - 1 - 0 = m + period := by omega
    rw [ticksBefore, hsum, Nat.add_div_right m hperiod, Nat.succ_div_of_not_dvd hcancelled]

/-- A task that was done at each of its ticks before a moment, and is neither running nor
stopped. -/
structure Punctual (c : Cycle) (first n : Nat) : Prop where
  running : c.stopped = false
  idle : c.busyUntil ≤ n - 1
  due : c.ticker.due = first + ticksBefore first c.ticker.period n * c.ticker.period

/-- A task that has had its turn at all moments before `n`, and is to stop from the moment
`cancelled` on.  It was done at each of its ticks until then, and at no other moments. -/
structure Timely (c : Cycle) (first period cancelled n : Nat) (done : List Nat) : Prop where
  every : c.ticker.period = period
  punctual : n ≤ cancelled → c.Punctual first n
  stopped : cancelled < n → c.stopped = true
  done : done = moments first period (ticksBefore first period (min n cancelled))

section

variable {σ : Type} {task : σ → Nat × σ} {c : Cycle} {s : σ} {first period cancelled n : Nat}
  {done : List Nat}

/-- At the next moment a punctual task is done if there is a tick, and it is punctual
again. -/
theorem Punctual.run_cases (h : c.Punctual first n) (hinstant : (task s).1 = 0) :
    ∃ c', c'.Punctual first (n + 1) ∧ c'.ticker.period = c.ticker.period ∧
      c.run task false n s = (c', if c.ticker.due = n then (task s).2 else s) := by
  have hidle : c.busyUntil ≤ n := Nat.le_trans h.idle (Nat.sub_le n 1)
  rcases ticksBefore_spec c.ticker.positive first n with ⟨hle, hticks⟩
  rw [← h.due] at hle hticks
  by_cases hdue : c.ticker.due = n
  · rw [run_of_eq_due h.running hidle hdue hinstant, if_pos hdue]
    refine ⟨⟨{ c.ticker with due := n + c.ticker.period }, n, false⟩,
      ⟨rfl, Nat.le_refl n, ?_⟩, rfl, rfl⟩
    rw [if_pos hdue] at hticks
    show n + c.ticker.period = first + ticksBefore first c.ticker.period (n + 1) * c.ticker.period
    rw [hticks, Nat.add_mul, Nat.one_mul, ← Nat.add_assoc, ← h.due, hdue]
  · have hearly : n < c.ticker.due := by omega
    rw [run_of_lt_due h.running hidle hearly, if_neg hdue]
    refine ⟨c, ⟨h.running, hidle, ?_⟩, rfl, rfl⟩
    rw [hticks, if_neg hdue, Nat.add_zero]
    exact h.due

/-- The ticks before the next moment are those before this one, and this one if it is a
tick. -/
theorem Punctual.moments_eq (h : c.Punctual first n) :
    moments first c.ticker.period (ticksBefore first c.ticker.period (n + 1)) =
      moments first c.ticker.period (ticksBefore first c.ticker.period n) ++
        if c.ticker.due = n then [n] else [] := by
  rw [(ticksBefore_spec c.ticker.positive first n).2, ← h.due]
  by_cases hdue : c.ticker.due = n
  · rw [if_pos hdue, if_pos hdue, moments_succ, ← h.due, hdue]
  · rw [if_neg hdue, if_neg hdue, Nat.add_zero, List.append_nil]

/-- A task that was never done is timely. -/
theorem timely_starting (hperiod : 0 < period) (lateness : Lateness) :
    (starting first period hperiod lateness).Timely first period cancelled 0 [] := by
  have hnone : ticksBefore first period 0 = 0 := Nat.div_eq_of_lt (by omega)
  refine ⟨rfl, fun _ => ⟨rfl, Nat.le_refl 0, ?_⟩, fun h => absurd h (Nat.not_lt_zero _), ?_⟩
  · show first = first + ticksBefore first period 0 * period
    rw [hnone, Nat.zero_mul, Nat.add_zero]
  · rw [Nat.zero_min, hnone]
    rfl

/-- A task is done at most once for each tick before it is stopped. -/
theorem Timely.length_le (h : c.Timely first period cancelled n done) :
    done.length ≤ ticksBefore first period cancelled := by
  have hticks : ticksBefore first period (min n cancelled) ≤ ticksBefore first period cancelled :=
    Nat.div_le_div_right (by omega)
  rw [h.done, moments, List.length_map, List.length_range]
  exact hticks

/-- A timely task that has its turn is done, at a tick, or is left as it is. -/
theorem Timely.run_cases (h : c.Timely first period cancelled n done)
    (hinstant : (task s).1 = 0) :
    (∃ c', c'.Timely first period cancelled (n + 1) (done ++ [n]) ∧
      c.run task (decide (cancelled ≤ n)) n s = (c', (task s).2)) ∨
    (∃ c', c'.Timely first period cancelled (n + 1) done ∧
      c.run task (decide (cancelled ≤ n)) n s = (c', s)) := by
  have hdone := h.done
  rcases Nat.lt_trichotomy n cancelled with hbefore | rfl | hafter
  · have hpunctual := h.punctual (Nat.le_of_lt hbefore)
    have hmoments := hpunctual.moments_eq
    rcases hpunctual.run_cases hinstant with ⟨c', hpunctual', hperiod, hrun⟩
    rw [h.every] at hmoments hperiod
    rw [Nat.min_eq_left (Nat.le_of_lt hbefore)] at hdone
    rw [decide_eq_false (Nat.not_le.2 hbefore), hrun]
    have htimely {log : List Nat} (hlog : log = done ++ if c.ticker.due = n then [n] else []) :
        c'.Timely first period cancelled (n + 1) log := by
      refine ⟨hperiod, fun _ => hpunctual', fun h => absurd h (Nat.not_lt.2 hbefore), ?_⟩
      rw [Nat.min_eq_left hbefore, hlog, hmoments, hdone]
    by_cases hdue : c.ticker.due = n
    · rw [if_pos hdue] at htimely ⊢
      exact .inl ⟨c', htimely rfl, rfl⟩
    · rw [if_neg hdue] at htimely ⊢
      exact .inr ⟨c', htimely (List.append_nil done).symm, rfl⟩
  · have hidle := (h.punctual (Nat.le_refl n)).idle
    rw [decide_eq_true (Nat.le_refl n), run_stop (Nat.le_trans hidle (Nat.sub_le n 1))]
    refine .inr ⟨{ c with stopped := true },
      ⟨h.every, fun h => absurd h (Nat.not_succ_le_self n), fun _ => rfl, ?_⟩, rfl⟩
    rw [Nat.min_eq_right (Nat.le_succ n)]
    rw [Nat.min_self] at hdone
    exact hdone
  · rw [run_of_stopped (h.stopped hafter)]
    refine .inr ⟨c, ⟨h.every, fun h => absurd (Nat.le_of_succ_le h) (Nat.not_le.2 hafter),
      fun _ => h.stopped hafter, ?_⟩, rfl⟩
    rw [Nat.min_eq_right (Nat.le_of_lt hafter)] at hdone
    rw [Nat.min_eq_right (Nat.le_succ_of_le (Nat.le_of_lt hafter))]
    exact hdone

/-- Once it has had its turn at a moment, there is nothing more to do at it. -/
theorem Timely.run_again (h : c.Timely first period cancelled (n + 1) done) :
    c.run task (decide (cancelled ≤ n)) n s = (c, s) := by
  rcases Nat.lt_or_ge n cancelled with hbefore | hafter
  · have hpunctual := h.punctual hbefore
    have hle := (ticksBefore_spec c.ticker.positive first (n + 1)).1
    rw [← hpunctual.due] at hle
    rw [decide_eq_false (Nat.not_le.2 hbefore)]
    exact run_of_lt_due hpunctual.running hpunctual.idle hle
  · exact run_of_stopped (h.stopped (Nat.lt_succ_of_le hafter))

end

end MetricRelay.Cycle
