import MetricRelay.Proofs.Message.RoundTrip

/-!
# Bodies of one message

A body of updates is read as a list of messages if its first character that is no
blank is the bracket of a list, and as one message otherwise.  But a message may
be written as a list too, of its fields without their names.  Where one message is
asked for, such a list is taken; where a list of messages may stand it is read as
one, and refused, because its first field is a text.

Main definitions:

- `Message.IsListed`: a body that starts with the bracket of a list.

Main results:

- `Message.readList?_of_isListed`: one message that is a list of fields is no list
  of messages.
- `Message.decodeBatch_of_decodeOne`: what a body of one message is where a list of
  messages may stand.
-/

namespace MetricRelay

open Utf8 (Bytes)

/-- More may be dropped at once if the next item is not dropped. -/
theorem dropWhile_of_dropWhile {α : Type} {p q : α → Bool} {s r : List α} {a : α}
    (h : s.dropWhile p = a :: r) (himp : ∀ b, p b = true → q b = true) (ha : q a = false) :
    s.dropWhile q = a :: r := by
  induction s with
  | nil => cases h
  | cons b s ih =>
    rw [List.dropWhile_cons] at h
    rw [List.dropWhile_cons]
    by_cases hb : p b = true
    · rw [if_pos hb] at h
      rw [if_pos (himp b hb)]
      exact ih h
    · rw [if_neg hb] at h
      cases h
      rw [ha]
      rfl

/-! ## Brackets -/

namespace Json

/-- A word is no bracket. -/
theorem readWord?_ne_opening (word : List Char) (x : Scalar) (s r : Bytes) (b : Bracket) :
    readWord? word x s ≠ some (.opening b, r) := by
  unfold readWord?
  split <;> simp

/-- A bracket is read from its own character. -/
theorem eq_of_tokenAt?_opening {c : UInt8} {s r : Bytes} {b : Bracket}
    (h : tokenAt? c s = some (.opening b, r)) : c = byte b.openingChar ∧ s = r := by
  unfold tokenAt? at h
  by_cases hlist : c = byte '['
  · rw [if_pos hlist] at h
    cases h
    exact ⟨hlist, rfl⟩
  by_cases hobject : c = byte '\x7b'
  · rw [if_neg hlist, if_pos hobject] at h
    cases h
    exact ⟨hobject, rfl⟩
  -- No other token is a bracket that opens.
  rw [if_neg hlist, if_neg hobject] at h
  repeat' split at h
  all_goals simp [readWord?_ne_opening] at h

/-- A bracket that opens is the first byte that is not blank. -/
theorem dropWhile_of_token?_opening {s r : Bytes} {b : Bracket}
    (h : token? s = some (.opening b, r)) :
    s.dropWhile isBlankByte = byte b.openingChar :: r := by
  unfold token? at h
  split at h
  · cases h
  · rename_i c t hs
    rcases eq_of_tokenAt?_opening h with ⟨rfl, rfl⟩
    exact hs

/-- The first of some items was read where they start. -/
theorem exists_of_readItems?_cons {α : Type} {read : Bytes → Option (α × Bytes)} {b : Bracket}
    {s t : Bytes} {x : α} {xs : List α} (h : readItems? read b s = some (x :: xs, t)) :
    ∃ r, read s = some (x, r) := by
  have hmore (h : readMoreItems? read b s = some (x :: xs, t)) : ∃ r, read s = some (x, r) := by
    rw [readMoreItems?] at h
    split at h
    · cases h
    · rename_i y r hread
      refine ⟨r, ?_⟩
      split at h
      · split at h
        · rcases Option.map_eq_some_iff.1 h with ⟨z, -, hz⟩
          cases hz
          exact hread
        · cases h
      · split at h
        · cases h
          exact hread
        · cases h
      · cases h
  unfold readItems? at h
  split at h
  · split at h
    · cases h
    · cases h
  · exact hmore h

/-- No items are read where the first one cannot be and the bracket is not closed. -/
theorem readItems?_eq_none {α : Type} {read : Bytes → Option (α × Bytes)} {b : Bracket} {s : Bytes}
    (hread : read s = none) (hclosing : ∀ b' r, token? s ≠ some (.closing b', r)) :
    readItems? read b s = none := by
  unfold readItems?
  split
  · rename_i b' r htoken
    exact absurd htoken (hclosing b' r)
  · rw [readMoreItems?, hread]

/-- A scalar field is a token. -/
theorem token?_of_readField?_scalar {s r : Bytes} {x : Scalar}
    (h : readField? s = some (.scalar x, r)) : token? s = some (.scalar x, r) := by
  unfold readField? at h
  split at h
  · rename_i htoken
    cases h
    exact htoken
  · rcases Option.map_eq_some_iff.1 h with ⟨z, -, hz⟩
    cases hz
  · rcases Option.map_eq_some_iff.1 h with ⟨z, -, hz⟩
    cases hz
  · cases h

end Json

/-! ## Messages -/

namespace Message

/-- A body whose first character that is no blank is the bracket of a list. -/
def IsListed (body : Bytes) : Prop :=
  (body.dropWhile isLeadingBlank).head? = some (Json.byte '[')

instance (body : Bytes) : Decidable (IsListed body) := by
  unfold IsListed
  infer_instance

/-- A body starts with the bracket that is read first. -/
theorem head?_of_token?_opening {body r : Bytes} {b : Json.Bracket}
    (h : Json.token? body = some (.opening b, r)) :
    (body.dropWhile isLeadingBlank).head? = some (Json.byte b.openingChar) := by
  have hblank (x : UInt8) (hx : Json.isBlankByte x = true) : isLeadingBlank x = true := by
    simp only [Json.isBlankByte, Bool.or_eq_true, decide_eq_true_eq] at hx
    rcases hx with ((rfl | rfl) | rfl) | rfl <;> rfl
  have hopening : isLeadingBlank (Json.byte b.openingChar) = false := by
    cases b <;> rfl
  rw [dropWhile_of_dropWhile (Json.dropWhile_of_token?_opening h) hblank hopening]
  rfl

/-- A message starts with a bracket, and with that of a list if its fields have no
names. -/
theorem exists_token?_of_read? {body r : Bytes} {m : Message} (h : read? body = some (m, r)) :
    ∃ t, Json.token? body = some (.opening .object, t) ∨
      Json.token? body = some (.opening .list, t) ∧
        ∃ fields, Json.readItems? Json.readField? .list t = some (fields, r) ∧
          ofRecord? (.listed fields) = some m := by
  unfold read? at h
  split at h
  · rename_i record t hrecord
    rcases Option.map_eq_some_iff.1 h with ⟨m', hm, heq⟩
    cases heq
    unfold Json.readRecord? at hrecord
    split at hrecord
    · rename_i t' htoken
      exact ⟨t', Or.inl htoken⟩
    · rename_i t' htoken
      rcases Option.map_eq_some_iff.1 hrecord with ⟨⟨fields, u⟩, hitems, heq⟩
      cases heq
      exact ⟨t', Or.inr ⟨htoken, fields, hitems, hm⟩⟩
    · cases hrecord
  · cases h

/-- The fields that a message is made of. -/
theorem exists_fields_of_ofRecord? {r : Json.Record} {m : Message} (h : ofRecord? r = some m) :
    ∃ id rest, r.fields? ["id", "type", "delta", "value", "hash"] 2 = some (id :: rest) ∧
      Json.Field.text? id = some m.id := by
  rw [ofRecord?, Option.bind_eq_bind, Option.bind_eq_some_iff] at h
  rcases h with ⟨fields, hfields, h⟩
  split at h
  · rename_i id kind delta value hash
    simp only [Option.bind_eq_bind, Option.bind_eq_some_iff, Option.pure_def,
      Option.some.injEq] at h
    rcases h with ⟨name, hname, _, -, _, -, _, -, _, -, rfl⟩
    exact ⟨id, _, hfields, hname⟩
  · cases h

/-- The first field of a message without names is the text that names it. -/
theorem exists_text_of_listed {fields : List Json.Field} {m : Message}
    (h : ofRecord? (.listed fields) = some m) :
    ∃ rest, fields = .scalar (.text (some m.id)) :: rest := by
  rcases exists_fields_of_ofRecord? h with ⟨id, rest, hfields, hid⟩
  simp only [Json.Record.fields?] at hfields
  split at hfields
  · have hhead : fields[0]? = id := by
      simpa [List.range, List.range.loop] using congrArg (Option.map List.head?) hfields
    rw [← hhead] at hid
    cases fields with
    | nil => cases hid
    | cons field rest =>
      refine ⟨rest, ?_⟩
      rw [List.getElem?_cons_zero] at hid
      unfold Json.Field.text? at hid
      split at hid
      · rename_i content heq
        rw [Option.some.inj heq, hid]
      · cases hid
  · cases hfields

/-- One message that is a list of its fields is no list of messages: a text is no
message. -/
theorem readList?_of_isListed {body r : Bytes} {m : Message} (h : read? body = some (m, r))
    (hlisted : IsListed body) : Json.readList? read? body = none := by
  rcases exists_token?_of_read? h with ⟨t, hobject | ⟨hlist, fields, hitems, hfields⟩⟩
  · rw [IsListed, head?_of_token?_opening hobject] at hlisted
    cases hlisted
  · rcases exists_text_of_listed hfields with ⟨rest, rfl⟩
    rcases Json.exists_of_readItems?_cons hitems with ⟨u, hfirst⟩
    have htoken := Json.token?_of_readField?_scalar hfirst
    have hread : read? t = none := by
      rw [read?, Json.readRecord?, htoken]
    rw [Json.readList?, hlist]
    apply Json.readItems?_eq_none hread
    intro b u' hclosing
    rw [htoken] at hclosing
    cases hclosing

/-- A body is one message if the whole of it is read as one. -/
theorem decodeOne_eq_ok_iff {body : Bytes} {m : Message} :
    decodeOne body = .ok m ↔ Json.whole? (read? body) = some m := by
  unfold decodeOne
  cases Json.whole? (read? body) <;> simp

/-- Why a body that starts with the bracket of a list is refused. -/
def notMessages : Failure :=
  .badRequest "invalid metric batch json: not a list of metric messages"

/-- A body of one message is one of a list of messages too, unless it starts with
the bracket of a list. -/
theorem decodeBatch_of_decodeOne {body : Bytes} {m : Message} (h : decodeOne body = .ok m) :
    decodeBatch body = if IsListed body then .error notMessages else .ok [m] := by
  by_cases hlisted : IsListed body
  · have hwhole := decodeOne_eq_ok_iff.1 h
    cases hread : read? body with
    | none =>
      rw [hread] at hwhole
      cases hwhole
    | some x =>
      have hhead : (body.dropWhile isLeadingBlank).head? = some (Json.byte '[') := hlisted
      rw [if_pos hlisted, decodeBatch, if_pos hhead, readList?_of_isListed hread hlisted]
      rfl
  · have hhead : (body.dropWhile isLeadingBlank).head? ≠ some (Json.byte '[') := hlisted
    rw [if_neg hlisted, decodeBatch, if_neg hhead, h]
    rfl

end Message

end MetricRelay
