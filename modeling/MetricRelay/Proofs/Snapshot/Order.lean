import MetricRelay.Proofs.Store.Snapshots
import MetricRelay.Proofs.Text.Order

/-!
# The order of a snapshot

A snapshot lists its entries in the order of the bytes of their types, and under one type
in the order of the bytes of their names.  No two entries stand at the same place, so the
list and the look-ups tell the same.

Main definition:

- `Utf8.Before`: the order of pairs of texts.

Main results:

- `Snapshot.ordered_triples`: the entries stand in this order.
- `Snapshot.mem_triples_iff`: the entries are what look-ups find.
-/

namespace MetricRelay

namespace Utf8

/-- Of two pairs of texts, the one whose bytes are smaller where they first differ. -/
def Before (x y : String × String) : Prop :=
  encode x.1 < encode y.1 ∨ x.1 = y.1 ∧ encode x.2 < encode y.2

/-- Keys are ordered by type, and by name in one type. -/
theorem before_iff {x y : String × String} : Before x y ↔ x.1 < y.1 ∨ x.1 = y.1 ∧ x.2 < y.2 := by
  rw [Before, encode_lt_encode_iff, encode_lt_encode_iff]

/-- No key is before itself. -/
theorem Before.ne {x y : String × String} (h : Before x y) : x ≠ y := by
  rintro rfl
  rcases before_iff.1 h with hlt | ⟨-, hlt⟩
  · exact String.lt_irrefl _ hlt
  · exact String.lt_irrefl _ hlt

end Utf8

namespace Snapshot

/-- The place of an entry. -/
def place (x : String × String × String) : String × String := (x.1, x.2.1)

/-- The entries stand in the order of types and then of names. -/
theorem ordered_triples (s : Snapshot) :
    s.triples.Pairwise fun x y => Utf8.Before (place x) (place y) := by
  refine List.pairwise_flatMap.2 ⟨fun t _ => ?_, s.sorted.imp fun {t u} hlt x hx y hy => ?_⟩
  · refine List.pairwise_map.2 (t.2.sorted.imp fun {n m} hlt => ?_)
    exact Utf8.before_iff.2 (Or.inr ⟨rfl, hlt⟩)
  · rcases List.mem_map.1 hx with ⟨n, -, rfl⟩
    rcases List.mem_map.1 hy with ⟨m, -, rfl⟩
    exact Utf8.before_iff.2 (Or.inl hlt)

/-- The entries are what look-ups find. -/
theorem mem_triples_iff {s : Snapshot} {type name text : String} :
    (type, name, text) ∈ s.triples ↔ s.lookup? type name = some text := by
  rw [triples, List.mem_flatMap, lookup?, Option.bind_eq_some_iff]
  constructor
  · rintro ⟨t, ht, hn⟩
    rcases List.mem_map.1 hn with ⟨n, hmem, heq⟩
    obtain ⟨rfl, rfl, rfl⟩ := heq
    exact ⟨t.2, Dictionary.find?_eq_some_iff.2 ht, Dictionary.find?_eq_some_iff.2 hmem⟩
  · rintro ⟨d, hd, hname⟩
    exact ⟨(type, d), Dictionary.find?_eq_some_iff.1 hd,
      List.mem_map.2 ⟨(name, text), Dictionary.find?_eq_some_iff.1 hname, rfl⟩⟩

end Snapshot

end MetricRelay
