import MetricRelay.Proofs.Json.Parts
import MetricRelay.Proofs.Message.Shapes

/-!
# Lists of messages

A body that starts with the bracket of a list is one of several messages exactly if it
is a list of bodies of one message each: between brackets, with commas between them and
blanks around each, and nothing but blanks behind the closing bracket.  This holds
whatever the messages hold, brackets and commas in their strings and in the values that
nobody reads included.

Main definitions:

- `Json.Separated` and `Json.Lists`: parts with commas between them, and between
  brackets.

Main results:

- `Message.decodeOne_eq_ok_iff_reads`: a body of one message is read whatever follows.
- `Message.decodes_lists`: bodies of several messages are lists of bodies of one.
-/

namespace MetricRelay

open Utf8 (Bytes)

/-! ## Lists of parts -/

namespace Json

/-- A part with blanks around it. -/
def Padded (part padded : Bytes) : Prop :=
  ∃ before after, before.all isBlankByte = true ∧ after.all isBlankByte = true ∧
    padded = before ++ (part ++ after)

/-- Parts with blanks around them and commas between them; at least one. -/
inductive Separated : List Bytes → Bytes → Prop
  | last {part padded : Bytes} (padding : Padded part padded) : Separated [part] padded
  | cons {part padded : Bytes} {parts : List Bytes} {s : Bytes} (padding : Padded part padded)
      (rest : Separated parts s) : Separated (part :: parts) (padded ++ byte ',' :: s)

/-- Parts between the brackets of a list, with blanks around it. -/
def Lists (parts : List Bytes) (body : Bytes) : Prop :=
  ∃ before inner after, before.all isBlankByte = true ∧ after.all isBlankByte = true ∧
    body = before ++ byte '[' :: (inner ++ byte ']' :: after) ∧
    (Separated parts inner ∨ parts = [] ∧ inner.all isBlankByte = true)

theorem mark?_opening_list : (Token.opening .list).mark? = some (byte '[') := rfl

theorem mark?_closing_list : (Token.closing .list).mark? = some (byte ']') := rfl

theorem mark?_comma : Token.comma.mark? = some (byte ',') := rfl

end Json

/-! ## Messages -/

namespace Message

open Json (Padded Separated Lists isBlankByte byte)

section

variable {body part padded inner s r : Bytes} {m : Message} {ms : List Message}
  {parts : List Bytes}

/-- Blanks before a message are skipped. -/
theorem skipsBlanks_read? : Json.SkipsBlanks read? := by
  intro b s hb
  rw [read?, read?, Json.skipsBlanks_readRecord? b s hb]

/-- A message is taken whatever follows it. -/
theorem read?_local (h : read? s = some (m, r)) :
    ∃ b, s = b ++ r ∧ ∀ u, read? (b ++ u) = some (m, u) := by
  unfold read? at h
  split at h
  · rename_i record t hrecord
    rcases Option.map_eq_some_iff.1 h with ⟨m', hm, heq⟩
    cases heq
    rcases Json.readRecord?_local hrecord with ⟨b, hs, hagain⟩
    refine ⟨b, hs, fun u => ?_⟩
    rw [read?, hagain u]
    simp only [hm, Option.map_some]
  · cases h

/-- A body is one message if it is read as one, whatever follows, up to some blanks. -/
theorem decodeOne_eq_ok_iff_reads : decodeOne body = .ok m ↔
    ∃ b blanks, body = b ++ blanks ∧ blanks.all isBlankByte = true ∧
      ∀ u, read? (b ++ u) = some (m, u) := by
  rw [decodeOne_eq_ok_iff]
  constructor
  · intro h
    cases hread : read? body with
    | none =>
      rw [hread] at h
      cases h
    | some x =>
      rcases x with ⟨m', r⟩
      rw [hread, Json.whole?] at h
      split at h
      · rename_i hblanks
        cases h
        rcases read?_local hread with ⟨b, hs, hagain⟩
        exact ⟨b, r, hs, hblanks, hagain⟩
      · cases h
  · rintro ⟨b, blanks, rfl, hblanks, hagain⟩
    rw [hagain blanks, Json.whole?, if_pos hblanks]

/-- A padded body of one message is read up to some blanks, whatever follows. -/
theorem exists_read?_of_padded (hpadded : Padded part padded) (hm : decodeOne part = .ok m) :
    ∃ blanks, blanks.all isBlankByte = true ∧ ∀ u, read? (padded ++ u) = some (m, blanks ++ u) := by
  rcases hpadded with ⟨before, after, hbefore, hafter, rfl⟩
  rcases decodeOne_eq_ok_iff_reads.1 hm with ⟨b, blanks, rfl, hblanks, hagain⟩
  refine ⟨blanks ++ after, by simp [hblanks, hafter], fun u => ?_⟩
  simp only [List.append_assoc]
  rw [skipsBlanks_read?.append hbefore, hagain]

/-- Bodies of one message with commas between them are read up to the bracket. -/
theorem readMoreItems?_of_separated (h : Separated parts inner)
    (hms : List.Forall₂ (fun part m => decodeOne part = .ok m) parts ms) (u : Bytes) :
    Json.readMoreItems? read? .list (inner ++ byte ']' :: u) = some (ms, u) := by
  induction h generalizing ms with
  | last padding =>
    rcases List.forall₂_cons_left_iff.1 hms with ⟨m, ms', hm, hnil, rfl⟩
    cases hnil
    rcases exists_read?_of_padded padding hm with ⟨blanks, hblanks, hread⟩
    refine Json.readMoreItems?_last (hread _) ?_
    exact (Json.token?_eq_some_iff Json.mark?_closing_list).2 ⟨blanks, hblanks, rfl⟩
  | cons padding _ ih =>
    rcases List.forall₂_cons_left_iff.1 hms with ⟨m, ms', hm, hrest, rfl⟩
    rcases exists_read?_of_padded padding hm with ⟨blanks, hblanks, hread⟩
    rw [List.append_assoc, List.cons_append]
    refine Json.readMoreItems?_comma (hread _) ?_ ?_ (ih hrest)
    · exact (Json.token?_eq_some_iff Json.mark?_comma).2 ⟨blanks, hblanks, rfl⟩
    · simp only [List.length_append, List.length_cons]
      omega

/-- Messages that are read up to the bracket are bodies of one message. -/
theorem exists_separated (h : Json.readMoreItems? read? .list s = some (ms, r)) :
    ∃ parts inner, s = inner ++ byte ']' :: r ∧ Separated parts inner ∧
      List.Forall₂ (fun part m => decodeOne part = .ok m) parts ms := by
  have hone {s t : Bytes} {m : Message} (hread : read? s = some (m, t)) :
      ∃ part, s = part ++ t ∧ decodeOne part = .ok m := by
    rcases read?_local hread with ⟨part, hs, hagain⟩
    exact ⟨part, hs, decodeOne_eq_ok_iff_reads.2
      ⟨part, [], (List.append_nil part).symm, rfl, hagain⟩⟩
  have hpadded (part : Bytes) {blanks : Bytes} (hblanks : blanks.all isBlankByte = true) :
      Padded part (part ++ blanks) := ⟨[], blanks, rfl, hblanks, rfl⟩
  induction ms generalizing s with
  | nil =>
    rcases Json.readMoreItems?_cases h with ⟨m, t, -, ⟨hms, -⟩ | ⟨t', ms', -, -, -, hms⟩⟩
    · cases hms
    · cases hms
  | cons m ms ih =>
    rcases Json.readMoreItems?_cases h with
      ⟨m', t, hread, ⟨hms, htoken⟩ | ⟨t', ms', htoken, -, hrest, hms⟩⟩
    · cases hms
      rcases hone hread with ⟨part, rfl, hm⟩
      rcases (Json.token?_eq_some_iff Json.mark?_closing_list).1 htoken with
        ⟨blanks, hblanks, rfl⟩
      refine ⟨[part], part ++ blanks, ?_, .last (hpadded part hblanks), .cons hm .nil⟩
      rw [List.append_assoc]
    · cases hms
      rcases hone hread with ⟨part, rfl, hm⟩
      rcases (Json.token?_eq_some_iff Json.mark?_comma).1 htoken with ⟨blanks, hblanks, rfl⟩
      rcases ih hrest with ⟨parts, inner, rfl, hseparated, hms⟩
      refine ⟨part :: parts, (part ++ blanks) ++ byte ',' :: inner, ?_,
        .cons (hpadded part hblanks) hseparated, .cons hm hms⟩
      simp only [List.append_assoc, List.cons_append]

/-- A list of bodies of one message is read up to its closing bracket. -/
theorem readList?_of_lists (h : Lists parts body)
    (hms : List.Forall₂ (fun part m => decodeOne part = .ok m) parts ms) :
    ∃ after, after.all isBlankByte = true ∧
      ∀ u, Json.readList? read? (body ++ u) = some (ms, after ++ u) := by
  rcases h with ⟨before, inner, after, hbefore, hafter, rfl, hinner⟩
  refine ⟨after, hafter, fun u => ?_⟩
  have hopening : Json.token? (before ++ byte '[' :: (inner ++ byte ']' :: after) ++ u) =
      some (.opening .list, inner ++ byte ']' :: (after ++ u)) := by
    refine (Json.token?_eq_some_iff Json.mark?_opening_list).2 ⟨before, hbefore, ?_⟩
    simp only [List.append_assoc, List.cons_append]
  rw [Json.readList?, hopening]
  rcases hinner with hseparated | ⟨rfl, hinner⟩
  · exact Json.readItems?_of_more refusesClosing_read? (readMoreItems?_of_separated hseparated hms _)
  · cases hms
    refine Json.readItems?_of_closing ?_
    exact (Json.token?_eq_some_iff Json.mark?_closing_list).2 ⟨inner, hinner, rfl⟩

/-- What is read as a list of messages is a list of bodies of one message. -/
theorem exists_lists (h : Json.readList? read? body = some (ms, r)) (hr : r.all isBlankByte = true) :
    ∃ parts, Lists parts body ∧ List.Forall₂ (fun part m => decodeOne part = .ok m) parts ms := by
  unfold Json.readList? at h
  split at h
  · rename_i t hopening
    rcases (Json.token?_eq_some_iff Json.mark?_opening_list).1 hopening with
      ⟨before, hbefore, rfl⟩
    rcases Json.readItems?_cases h with ⟨rfl, hclosing⟩ | hmore
    · rcases (Json.token?_eq_some_iff Json.mark?_closing_list).1 hclosing with
        ⟨inner, hinner, rfl⟩
      exact ⟨[], ⟨before, inner, r, hbefore, hr, rfl, .inr ⟨rfl, hinner⟩⟩, .nil⟩
    · rcases exists_separated hmore with ⟨parts, inner, rfl, hseparated, hms⟩
      exact ⟨parts, ⟨before, inner, r, hbefore, hr, rfl, .inl hseparated⟩, hms⟩
  · cases h

/-- A list of messages starts as a list, whatever follows it. -/
theorem isListed_of_lists (h : Lists parts body) (u : Bytes) : IsListed (body ++ u) := by
  rcases h with ⟨before, inner, after, hbefore, -, rfl, -⟩
  have hopening : Json.token? (before ++ byte '[' :: (inner ++ byte ']' :: after) ++ u) =
      some (.opening .list, inner ++ byte ']' :: after ++ u) := by
    refine (Json.token?_eq_some_iff Json.mark?_opening_list).2 ⟨before, hbefore, ?_⟩
    rw [List.append_assoc, List.cons_append]
  exact head?_of_token?_opening hopening

/-- A body that starts as a list is decoded as a list, and not as a single message. -/
theorem decodeBatch_of_isListed (h : IsListed body) : decodeBatch body =
    match Json.whole? (Json.readList? read? body) with
    | some ms => .ok ms
    | none => .error notMessages := by
  have hhead : (body.dropWhile isLeadingBlank).head? = some (Json.byte '[') := h
  rw [decodeBatch, if_pos hhead]
  rfl

/-- A body that starts with the bracket of a list is one of several messages exactly if it
is a list of bodies of one message each, and it is none if anything but blanks follows the
closing bracket of such a list. -/
theorem decodes_lists (body : Bytes) (ms : List Message) :
    (IsListed body ∧ decodeBatch body = .ok ms ↔
      ∃ parts, Lists parts body ∧ List.Forall₂ (fun part m => decodeOne part = .ok m) parts ms) ∧
    ∀ parts rest, Lists parts body →
      List.Forall₂ (fun part m => decodeOne part = .ok m) parts ms →
      rest.all isBlankByte = false → decodeBatch (body ++ rest) = .error notMessages := by
  constructor
  · constructor
    · rintro ⟨hlisted, hbatch⟩
      rw [decodeBatch_of_isListed hlisted] at hbatch
      cases hread : Json.readList? read? body with
      | none => simp [hread, Json.whole?] at hbatch
      | some x =>
        rcases x with ⟨ms', r⟩
        cases hr : r.all isBlankByte with
        | true =>
          simp only [hread, Json.whole?, hr, if_true, Except.ok.injEq] at hbatch
          cases hbatch
          exact exists_lists hread hr
        | false => simp [hread, Json.whole?, hr] at hbatch
    · rintro ⟨parts, hlists, hms⟩
      have hlisted := isListed_of_lists hlists []
      rcases readList?_of_lists hlists hms with ⟨after, hafter, hread⟩
      have hbody := hread []
      rw [List.append_nil] at hlisted hbody
      refine ⟨hlisted, ?_⟩
      rw [decodeBatch_of_isListed hlisted, hbody]
      simp [Json.whole?, hafter]
  · intro parts rest hlists hms hrest
    rcases readList?_of_lists hlists hms with ⟨after, hafter, hread⟩
    rw [decodeBatch_of_isListed (isListed_of_lists hlists rest), hread rest]
    simp [Json.whole?, List.all_append, hafter, hrest]

/-- A message without the names of its fields, and one with brackets and commas in its
strings and in a field that nobody reads, with blanks around them. -/
theorem decodes_lists_of_brackets_in_strings :
    let first := Utf8.encode "[\"load\",\"gauge\"]"
    let second := Utf8.encode
      "\x7b\"id\":\"],\",\"type\":\"counter\",\"delta\":7,\"more\":[[\",[\"]]\x7d"
    let body := Utf8.encode " [" ++ (first ++ Utf8.encode " ,\n" ++ second) ++ Utf8.encode "]\t"
    let messages : List Message := [.query "load" "gauge",
      ⟨"],", "counter", some (.clamp 7), none, none⟩]
    Lists [first, second] body ∧
      List.Forall₂ (fun part m => decodeOne part = .ok m) [first, second] messages ∧
      decodeBatch body = .ok messages ∧
      decodeBatch (body ++ Utf8.encode "]") = .error notMessages := by
  intro first second body messages
  have hseparated : Separated [first, second] (first ++ Utf8.encode " ,\n" ++ second) :=
    .cons ⟨[], Utf8.encode " ", rfl, rfl, rfl⟩ (.last ⟨Utf8.encode "\n", [], rfl, rfl, rfl⟩)
  have hlists : Lists [first, second] body :=
    ⟨Utf8.encode " ", _, Utf8.encode "\t", rfl, rfl, rfl, .inl hseparated⟩
  have hmessages : List.Forall₂ (fun part m => decodeOne part = .ok m) [first, second] messages :=
    .cons (by decide +kernel) (.cons (by decide +kernel) .nil)
  have hdecodes := decodes_lists body messages
  exact ⟨hlists, hmessages, (hdecodes.1.2 ⟨_, hlists, hmessages⟩).2,
    hdecodes.2 _ _ hlists hmessages rfl⟩

end

end Message

end MetricRelay
