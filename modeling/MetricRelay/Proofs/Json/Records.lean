import Mathlib.Data.List.Forall2
import MetricRelay.Proofs.Json.Tokens

/-!
# Written records are read back

Parts that are read back one by one are read back as the members of an object or
as the items of a list.  Blanks may stand before each part and before the closing
bracket, so this covers compact texts and indented ones.

Main results:

- `reads_member`: a key with a value.
- `reads_object`: an object of members.
- `reads_list`: a list of items.
- `whole?_of_reads`: a text that is one value.
-/

namespace MetricRelay.Json

open Utf8 (Bytes encodeChars)

namespace Bracket

/-- The character of an opening bracket. -/
def openingChar : Bracket → Char
  | list => '['
  | object => '\x7b'

/-- The character of a closing bracket. -/
def closingChar : Bracket → Char
  | list => ']'
  | object => '\x7d'

end Bracket

/-! ## Punctuation -/

theorem token?_opening (b : Bracket) (r : Bytes) :
    token? (byte b.openingChar :: r) = some (.opening b, r) := by
  cases b <;> rfl

theorem token?_closing (b : Bracket) (r : Bytes) :
    token? (byte b.closingChar :: r) = some (.closing b, r) := by
  cases b <;> rfl

theorem token?_comma (r : Bytes) : token? (byte ',' :: r) = some (.comma, r) := rfl

theorem token?_colon (r : Bytes) : token? (byte ':' :: r) = some (.colon, r) := rfl

theorem encodeChars_openingChar (b : Bracket) (s : List Char) :
    encodeChars (b.openingChar :: s) = byte b.openingChar :: encodeChars s := by
  cases b <;> exact encodeChars_cons_of_lt (by decide) s

/-- A closing bracket ends whatever stands before it, also behind blanks. -/
theorem ends_closing {blanks : List Char} (hblanks : IsBlank blanks) (b : Bracket) (r : Bytes) :
    Ends (encodeChars blanks ++ byte b.closingChar :: r) := by
  cases blanks with
  | nil =>
    cases b with
    | list => exact ends_cons rfl r
    | object => exact ends_cons rfl r
  | cons c s =>
    rcases hblanks c List.mem_cons_self with rfl | rfl
    · rw [encodeChars_cons_of_lt (by decide), List.cons_append]
      exact ends_cons rfl _
    · rw [encodeChars_cons_of_lt (by decide), List.cons_append]
      exact ends_cons rfl _

/-! ## Fields -/

/-- Blanks before a field are skipped. -/
theorem skipsBlanks_readField? : SkipsBlanks readField? := by
  intro b s hb
  rw [readField?, readField?, skipsBlanks_token? b s hb]

/-- Blanks before a named field are skipped. -/
theorem skipsBlanks_readNamedField? : SkipsBlanks readNamedField? := by
  intro b s hb
  rw [readNamedField?, readNamedField?, skipsBlanks_token? b s hb]

/-- Blanks before a record are skipped. -/
theorem skipsBlanks_readRecord? : SkipsBlanks readRecord? := by
  intro b s hb
  rw [readRecord?, readRecord?, skipsBlanks_token? b s hb]

/-- A scalar as a field. -/
theorem Reads.field {text : List Char} {x : Scalar} (h : Reads token? text (.scalar x)) :
    Reads readField? text (.scalar x) := by
  intro r hr
  rw [readField?, h r hr]

/-- A key with the text of its value. -/
theorem reads_member (key : String) {value : List Char} {f : Field}
    (h : Reads readField? value f) : Reads readNamedField? (member key value) (key, f) := by
  intro r hr
  have hkey := reads_quote key (byte ':' :: (encodeChars value ++ r)) (ends_cons rfl _)
  rw [member, Utf8.encodeChars_append, encodeChars_cons_of_lt (by decide), List.append_assoc,
    List.cons_append, readNamedField?, hkey]
  simp only [token?_colon, h r hr, Option.map_some]

/-! ## Items -/

/-- A reader of items finds none where a closing bracket stands. -/
def RefusesClosing {α : Type} (read : Bytes → Option (α × Bytes)) : Prop :=
  ∀ s b r, token? s = some (.closing b, r) → read s = none

/-- A named field does not start with a bracket that closes. -/
theorem refusesClosing_readNamedField? : RefusesClosing readNamedField? := by
  intro s b r h
  rw [readNamedField?, h]

/-- A record does not start with a bracket that closes. -/
theorem refusesClosing_readRecord? : RefusesClosing readRecord? := by
  intro s b r h
  rw [readRecord?, h]

section Items

variable {α : Type} {read : Bytes → Option (α × Bytes)} {texts : List (List Char)} {xs : List α}
  {blanks : List Char}

/-- An item before the closing bracket is the last one. -/
theorem readMoreItems?_last {b : Bracket} {s t r : Bytes} {x : α} (hread : read s = some (x, t))
    (htoken : token? t = some (.closing b, r)) : readMoreItems? read b s = some ([x], r) := by
  rw [readMoreItems?, hread]
  simp only [htoken, if_true]

/-- An item before a comma has others after it. -/
theorem readMoreItems?_comma {b : Bracket} {s t r u : Bytes} {x : α} {ys : List α}
    (hread : read s = some (x, t)) (htoken : token? t = some (.comma, r))
    (hlength : r.length < s.length) (hrest : readMoreItems? read b r = some (ys, u)) :
    readMoreItems? read b s = some (x :: ys, u) := by
  rw [readMoreItems?, hread]
  simp only [htoken]
  rw [dif_pos hlength, hrest]
  rfl

/-- The text of at least two parts: the first one, a comma, and the others. -/
theorem encodeChars_separated_cons (part part' : List Char) (parts : List (List Char)) (r : Bytes) :
    encodeChars (separated [','] (part :: part' :: parts)) ++ r =
      encodeChars part ++ byte ',' :: (encodeChars (separated [','] (part' :: parts)) ++ r) := by
  rw [separated, Utf8.encodeChars_append, Utf8.encodeChars_append]
  · rw [List.append_assoc, List.append_assoc]
    rfl
  · simp

/-- Items with commas between them are read up to the closing bracket. -/
theorem readMoreItems?_separated (h : List.Forall₂ (Reads read) texts xs) (hne : texts ≠ [])
    (hblanks : IsBlank blanks) (b : Bracket) (r : Bytes) :
    readMoreItems? read b (encodeChars (separated [','] texts) ++
      (encodeChars blanks ++ byte b.closingChar :: r)) = some (xs, r) := by
  induction h with
  | nil => exact absurd rfl hne
  | @cons text x texts xs hread hrest ih =>
    cases hrest with
    | nil =>
      refine readMoreItems?_last (hread _ (ends_closing hblanks b r)) ?_
      rw [skipsBlanks_token?.read_append hblanks]
      exact token?_closing b r
    | @cons text' x' texts' xs' hread' hrest' =>
      have htail := ih (List.cons_ne_nil _ _)
      rw [encodeChars_separated_cons]
      refine readMoreItems?_comma (hread _ (ends_cons rfl _)) (token?_comma _) ?_ htail
      have hlength {s t : Bytes} {c : UInt8} : t.length < (s ++ c :: t).length := by
        rw [List.length_append, List.length_cons]
        omega
      exact hlength

/-- Items up to the closing bracket, if there are any. -/
theorem readItems?_separated (hclosing : RefusesClosing read)
    (h : List.Forall₂ (Reads read) texts xs) (hblanks : IsBlank blanks) (b : Bracket) (r : Bytes) :
    readItems? read b (encodeChars (separated [','] texts) ++
      (encodeChars blanks ++ byte b.closingChar :: r)) = some (xs, r) := by
  have hmore := fun hne => readMoreItems?_separated h hne hblanks b r
  cases h with
  | nil =>
    rw [readItems?]
    simp only [separated]
    rw [show encodeChars [] = [] from rfl, List.nil_append,
      skipsBlanks_token?.read_append hblanks, token?_closing]
    exact if_pos rfl
  | @cons text x texts xs hread hrest =>
    have hsome := hmore (List.cons_ne_nil _ _)
    rw [readItems?]
    split
    · rename_i b' t htoken
      have hnone := hclosing _ _ _ htoken
      rw [readMoreItems?, hnone] at hsome
      cases hsome
    · exact hsome

/-- The text of items between brackets. -/
theorem encodeChars_bracketed (b : Bracket) (texts : List (List Char)) (blanks : List Char)
    (r : Bytes) :
    encodeChars (b.openingChar :: separated [','] texts ++ blanks ++ [b.closingChar]) ++ r =
      byte b.openingChar :: (encodeChars (separated [','] texts) ++
        (encodeChars blanks ++ byte b.closingChar :: r)) := by
  have hclosing : encodeChars [b.closingChar] = [byte b.closingChar] := by
    cases b <;> rfl
  rw [List.cons_append, List.cons_append, encodeChars_openingChar, Utf8.encodeChars_append,
    Utf8.encodeChars_append, hclosing]
  simp only [List.cons_append, List.append_assoc, List.nil_append]

/-- A list of items. -/
theorem reads_list (hclosing : RefusesClosing read) (h : List.Forall₂ (Reads read) texts xs)
    (hblanks : IsBlank blanks) :
    Reads (readList? read) ('[' :: separated [','] texts ++ blanks ++ [']']) xs := by
  intro r _
  have htext := encodeChars_bracketed .list texts blanks r
  simp only [Bracket.openingChar, Bracket.closingChar] at htext
  have htoken := token?_opening .list (encodeChars (separated [','] texts) ++
    (encodeChars blanks ++ byte ']' :: r))
  simp only [Bracket.openingChar] at htoken
  rw [htext, readList?, htoken]
  exact readItems?_separated hclosing h hblanks .list r

end Items

/-- An object of members. -/
theorem reads_object {members : List (List Char)} {fields : List (String × Field)}
    {blanks : List Char} (h : List.Forall₂ (Reads readNamedField?) members fields)
    (hblanks : IsBlank blanks) :
    Reads readRecord? ('\x7b' :: separated [','] members ++ blanks ++ ['\x7d'])
      (.named fields) := by
  intro r _
  have htext := encodeChars_bracketed .object members blanks r
  simp only [Bracket.openingChar, Bracket.closingChar] at htext
  have htoken := token?_opening .object (encodeChars (separated [','] members) ++
    (encodeChars blanks ++ byte '\x7d' :: r))
  simp only [Bracket.openingChar] at htoken
  have hitems := readItems?_separated refusesClosing_readNamedField? h hblanks .object r
  simp only [Bracket.closingChar] at hitems
  rw [htext, readRecord?, htoken]
  simp only [hitems, Option.map_some]

/-! ## Whole texts -/

/-- A text that is one value. -/
theorem whole?_of_reads {α : Type} {read : Bytes → Option (α × Bytes)} {text : List Char} {x : α}
    (h : Reads read text x) : whole? (read (encodeChars text)) = some x := by
  have hread := h [] ends_nil
  rw [List.append_nil] at hread
  rw [hread]
  rfl

end MetricRelay.Json
