import MetricRelay.Proofs.Http.Board
import MetricRelay.Proofs.Message.RoundTrip
import MetricRelay.Proofs.Metric.Totals

/-!
# Totals on a board

Metrics that are received count for their own keys.  As long as nothing stops at
the ends of the range, what a board counts under a name is what was sent under
it.

Main definitions:

- `Board.amount`: what is counted under a key.
- `Board.AddsAllExactly`: no message brings its counter to an end of the range.

Main results:

- `Board.amount_takeAll_received`: metrics add what they count, each to its own
  counter.
-/

namespace MetricRelay

namespace Board

/-- What is counted under a key. -/
def amount (board : Board) (key : Key) : Int := ((board key).map Value.amount).getD 0

/-- A message does not bring its counter to an end of the range. -/
def AddsExactly (board : Board) (m : Message) : Prop :=
  Kind.ofName? m.kind = some .counter →
    ∀ v ∈ board ⟨.counter, m.id⟩, ∀ d ∈ m.delta, v.AddsExactly (.total d)

/-- No message of a list does. -/
def AddsAllExactly (board : Board) : List Message → Prop
  | [] => True
  | m :: ms => board.AddsExactly m ∧ (board.take m).AddsAllExactly ms

/-- An update changes the amount of its own key only. -/
theorem amount_set (board : Board) (key key' : Key) (v : Value) :
    (board.set key v).amount key' = if key' = key then v.amount else board.amount key' := by
  unfold amount set
  by_cases h : key' = key
  · rw [if_pos h, if_pos h]
    rfl
  · rw [if_neg h, if_neg h]

/-- Away from the ends of the range a counter grows by exactly the delta, from zero if there
was none. -/
theorem val_grown {kept : Option Value} {d : Count}
    (h : ∀ v ∈ kept, v.AddsExactly (.total d)) :
    (grown kept d).val = (kept.map Value.amount).getD 0 + d.val := by
  cases kept with
  | none => exact (Int.zero_add d.val).symm
  | some v =>
    cases v with
    | total n => exact h (.total n) rfl
    | reading x => exact (Int.zero_add d.val).symm

/-- A metric that is received adds what it counts to its own counter. -/
theorem amount_take_received (s : Signer) {m : Metric} {board : Board}
    (hexact : board.AddsExactly (s.message m).received) (name : String) :
    (board.take (s.message m).received).amount ⟨.counter, name⟩ =
      board.amount ⟨.counter, name⟩ +
        if m.key = ⟨.counter, name⟩ then m.value.amount else 0 := by
  rcases m with ⟨id, v⟩
  cases v with
  | total d =>
    have hkind : Kind.ofName? (s.message ⟨id, .total d⟩).received.kind = some .counter :=
      Kind.ofName?_name .counter
    have hdelta : (s.message ⟨id, .total d⟩).received.delta = some d := rfl
    have hid : (s.message ⟨id, .total d⟩).received.id = id := rfl
    have hkey : (⟨id, .total d⟩ : Metric).key = ⟨.counter, id⟩ := rfl
    have hgrown := val_grown fun v hv => hexact hkind v hv d hdelta
    rw [hid] at hgrown
    rw [board.take_counter hkind hdelta, amount_set, hid, hkey]
    by_cases hname : name = id
    · rw [hname, if_pos rfl, if_pos rfl]
      exact hgrown
    · have hne : (⟨.counter, name⟩ : Key) ≠ ⟨.counter, id⟩ := fun h => hname (Key.mk.inj h).2
      rw [if_neg hne, if_neg (Ne.symm hne), Int.add_zero]
  | reading x =>
    have hkind : Kind.ofName? (s.message ⟨id, .reading x⟩).received.kind = some .gauge :=
      Kind.ofName?_name .gauge
    have hkey : (⟨id, .reading x⟩ : Metric).key ≠ ⟨.counter, name⟩ := fun h =>
      nomatch (Key.mk.inj h).1
    rw [if_neg hkey, Int.add_zero]
    cases hx : x.isFinite with
    | true =>
      have hvalue : (s.message ⟨id, .reading x⟩).received.value = some x := by
        show Option.filter Binary64.isFinite (some x) = some x
        rw [Option.filter_some, if_pos hx]
      have hid : (s.message ⟨id, .reading x⟩).received.id = id := rfl
      have hgauge : (⟨.counter, name⟩ : Key) ≠ ⟨.gauge, id⟩ := fun h => nomatch (Key.mk.inj h).1
      rw [board.take_gauge hkind hvalue, amount_set, hid, if_neg hgauge]
    | false =>
      have hvalue : (s.message ⟨id, .reading x⟩).received.value = none := by
        show Option.filter Binary64.isFinite (some x) = none
        rw [Option.filter_some, hx]
        rfl
      have hsame : board.take (s.message ⟨id, .reading x⟩).received = board := by
        unfold take
        simp only [hkind, hvalue]
      rw [hsame]

/-- Metrics that are received add what they count, each to its own counter. -/
theorem amount_takeAll_received (s : Signer) {ms : List Metric} {board : Board}
    (hexact : board.AddsAllExactly ((ms.map s.message).map Message.received)) (name : String) :
    (board.takeAll ((ms.map s.message).map Message.received)).amount ⟨.counter, name⟩ =
      board.amount ⟨.counter, name⟩ +
        (ms.map fun m => if m.key = ⟨.counter, name⟩ then m.value.amount else 0).sum := by
  induction ms generalizing board with
  | nil => exact (Int.add_zero _).symm
  | cons m ms ih =>
    rcases hexact with ⟨hone, hrest⟩
    have htake := amount_take_received s hone name
    have htail := ih hrest
    have hsum : ((m :: ms).map fun m => if m.key = ⟨.counter, name⟩ then m.value.amount else 0).sum =
        (if m.key = ⟨.counter, name⟩ then m.value.amount else 0) +
          (ms.map fun m => if m.key = ⟨.counter, name⟩ then m.value.amount else 0).sum := by
      rw [List.map_cons, List.sum_cons]
    rw [hsum, ← Int.add_assoc, ← htake, ← htail]
    rfl

end Board

end MetricRelay
