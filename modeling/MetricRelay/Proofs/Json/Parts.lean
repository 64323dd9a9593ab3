import MetricRelay.Proofs.Json.Locality

/-!
# Parts of a text

The parts of a list or an object are read inside it as they are read alone, however deep
the values in them are and whatever their strings hold.  What ends with a bracket is
taken whatever follows it.

Main results:

- `isLocal_readField?` and `isLocal_readNamedField?`: fields.
- `readMoreItems?_cases`: the first of some items, and the others.
- `readRecord?_local`: records.
-/

namespace MetricRelay.Json

open Utf8 (Bytes)

/-! ## Values that are skipped over -/

/-- After a scalar comes the rest of the bracket, or the colon if the scalar was a key. -/
theorem Skim.next_of_step_scalar {next next' : Skim.Next} {brackets brackets' : List Bracket}
    {x : Scalar} (h : Skim.step next brackets (.scalar x) = some (.within next' brackets')) :
    next' = .rest ∨ next' = .colon := by
  have hvalue {brackets : List Bracket}
      (h : Skim.afterValue brackets = .within next' brackets') : next' = .rest := by
    cases brackets with
    | nil => cases h
    | cons b brackets =>
      cases h
      rfl
  have hkey (h : Skim.startKey brackets (.scalar x) = some (.within next' brackets')) :
      next' = .colon := by
    cases x with
    | text content =>
      cases h
      rfl
    | null => cases h
    | boolean b => cases h
    | number literal => cases h
  cases next with
  | value => exact .inl (hvalue (Option.some.inj h))
  | firstItem => exact .inl (hvalue (Option.some.inj h))
  | firstKey => exact .inr (hkey h)
  | key => exact .inr (hkey h)
  | colon => cases h
  | rest => cases h

/-- In those two places there can only be a mark. -/
theorem Skim.mark?_of_step {next : Skim.Next} {brackets : List Bracket} {t : Token} {after : Skim}
    (hnext : next = .rest ∨ next = .colon) (h : Skim.step next brackets t = some after) :
    ∃ m, t.mark? = some m := by
  cases t with
  | scalar x => rcases hnext with rfl | rfl <;> cases h
  | opening b => exact ⟨_, rfl⟩
  | closing b => exact ⟨_, rfl⟩
  | comma => exact ⟨_, rfl⟩
  | colon => exact ⟨_, rfl⟩

section

variable {s r : Bytes}

/-- A token after which the value is complete is the last one. -/
theorem skim?_done {next : Skim.Next} {brackets : List Bracket} {t : Token}
    (htoken : token? s = some (t, r)) (hstep : Skim.step next brackets t = some .done) :
    skim? next brackets s = some r := by
  rw [skim?, htoken]
  simp only [hstep]

/-- After any other token skipping over goes on. -/
theorem skim?_within {next next' : Skim.Next} {brackets brackets' : List Bracket} {t : Token}
    (htoken : token? s = some (t, r))
    (hstep : Skim.step next brackets t = some (.within next' brackets')) :
    skim? next brackets s = skim? next' brackets' r := by
  rw [skim?, htoken]
  simp only [hstep]

/-- Behind a scalar stands something that ends it. -/
theorem ends_of_skim? {next : Skim.Next} {brackets : List Bracket}
    (hnext : next = .rest ∨ next = .colon) (h : skim? next brackets s = some r) : Ends s := by
  cases htoken : token? s with
  | none =>
    rw [skim?, htoken] at h
    cases h
  | some x =>
    rcases x with ⟨t, s'⟩
    cases hstep : Skim.step next brackets t with
    | none =>
      rw [skim?, htoken] at h
      simp only [hstep] at h
      cases h
    | some after =>
      rcases Skim.mark?_of_step hnext hstep with ⟨m, hm⟩
      rcases (token?_eq_some_iff hm).1 htoken with ⟨blanks, hblanks, rfl⟩
      exact ends_mark hblanks hm s'

/-- What ends a number is told by its first byte. -/
theorem Ends.append {b : Bytes} (h : Ends (b ++ r)) (hne : b ≠ []) (u : Bytes) : Ends (b ++ u) := by
  rcases List.exists_cons_of_ne_nil hne with ⟨c, t, rfl⟩
  exact h

/-- What is skipped over is skipped over again, whatever ends it. -/
theorem skim?_local {next : Skim.Next} {brackets : List Bracket}
    (h : skim? next brackets s = some r) :
    ∃ b, s = b ++ r ∧ b ≠ [] ∧ ∀ u, Ends u → skim? next brackets (b ++ u) = some u := by
  fun_induction skim? next brackets s with
  | case1 => cases h
  | case2 => cases h
  | case3 next brackets s t s' htoken hstep =>
    cases h
    rcases token?_local htoken with ⟨b, rfl, hne, htakes⟩
    exact ⟨b, rfl, hne, fun u hu => skim?_done (htakes u fun _ => hu) hstep⟩
  | case4 next brackets s t s' htoken next' brackets' hstep ih =>
    rcases ih h with ⟨b', rfl, hne', hagain⟩
    rcases token?_local htoken with ⟨b, rfl, -, htakes⟩
    refine ⟨b ++ b', (List.append_assoc b b' r).symm, by simp [hne'], fun u hu => ?_⟩
    have hends : t.mark? = none → Ends (b' ++ u) := by
      intro hm
      cases t with
      | scalar x => exact (ends_of_skim? (Skim.next_of_step_scalar hstep) h).append hne' u
      | opening b => cases hm
      | closing b => cases hm
      | comma => cases hm
      | colon => cases hm
    rw [List.append_assoc, skim?_within (htakes _ hends) hstep]
    exact hagain u hu

end

/-! ## Fields -/

/-- A field with a bracket: what is skipped over after the bracket. -/
theorem isLocal_readField? : IsLocal readField? := by
  intro s f r h
  have hcompound {b : Bracket} {next : Skim.Next} {t : Bytes}
      (htoken : token? s = some (.opening b, t))
      (hread : ∀ s t, token? s = some (.opening b, t) →
        readField? s = (skim? next [b] t).map (.compound, ·)) :
      ∃ d, s = d ++ r ∧ Takes readField? d f := by
    rw [hread s t htoken] at h
    rcases Option.map_eq_some_iff.1 h with ⟨r', hskim, heq⟩
    cases heq
    rcases skim?_local hskim with ⟨d, rfl, -, hagain⟩
    rcases token?_local htoken with ⟨c, rfl, -, htakes⟩
    refine ⟨c ++ d, (List.append_assoc c d r).symm, fun u hu => ?_⟩
    have htoken' := htakes (d ++ u) fun hm => by cases hm
    rw [List.append_assoc, hread _ _ htoken', hagain u hu]
    rfl
  cases htoken : token? s with
  | none =>
    rw [readField?, htoken] at h
    cases h
  | some x =>
    rcases x with ⟨t, s'⟩
    cases t with
    | scalar x =>
      rw [readField?, htoken] at h
      cases h
      rcases token?_local htoken with ⟨b, rfl, -, htakes⟩
      refine ⟨b, rfl, fun u hu => ?_⟩
      rw [readField?, htakes u fun _ => hu]
    | opening b =>
      cases b with
      | list => exact hcompound htoken fun s t htoken => by rw [readField?, htoken]
      | object => exact hcompound htoken fun s t htoken => by rw [readField?, htoken]
    | closing b =>
      rw [readField?, htoken] at h
      cases h
    | comma =>
      rw [readField?, htoken] at h
      cases h
    | colon =>
      rw [readField?, htoken] at h
      cases h

/-- A key with its field: the key is a text, and a colon ends it. -/
theorem readNamedField?_eq_some {s r : Bytes} {x : String × Field}
    (h : readNamedField? s = some (x, r)) : ∃ t t',
      token? s = some (.scalar (.text (some x.1)), t) ∧ token? t = some (.colon, t') ∧
        readField? t' = some (x.2, r) := by
  unfold readNamedField? at h
  split at h
  · rename_i key t hkey
    split at h
    · rename_i t' hcolon
      rcases Option.map_eq_some_iff.1 h with ⟨⟨f, r'⟩, hfield, heq⟩
      cases heq
      exact ⟨t, t', hkey, hcolon, hfield⟩
    · cases h
  · cases h

/-- A named field is its key, a colon and a field. -/
theorem isLocal_readNamedField? : IsLocal readNamedField? := by
  intro s x r h
  rcases readNamedField?_eq_some h with ⟨t, t', hkey, hcolon, hfield⟩
  have hmark : Token.colon.mark? = some (byte ':') := rfl
  rcases isLocal_readField? _ _ _ hfield with ⟨d, rfl, hagain⟩
  rcases (token?_eq_some_iff hmark).1 hcolon with ⟨blanks, hblanks, rfl⟩
  rcases token?_local hkey with ⟨b, rfl, -, htakes⟩
  refine ⟨b ++ (blanks ++ byte ':' :: d), by simp only [List.append_assoc, List.cons_append],
    fun u hu => ?_⟩
  have hkey' := htakes (blanks ++ byte ':' :: (d ++ u)) fun _ => ends_mark hblanks hmark _
  have hcolon' : token? (blanks ++ byte ':' :: (d ++ u)) = some (.colon, d ++ u) :=
    (token?_eq_some_iff hmark).2 ⟨blanks, hblanks, rfl⟩
  simp only [List.append_assoc, List.cons_append, readNamedField?, hkey', hcolon', hagain u hu,
    Option.map_some]

/-! ## Items -/

section

variable {α : Type} {read : Bytes → Option (α × Bytes)} {b : Bracket} {s r : Bytes} {xs : List α}

/-- The first of some items, and what is behind it: the closing bracket, or a comma and
the others. -/
theorem readMoreItems?_cases (h : readMoreItems? read b s = some (xs, r)) :
    ∃ x t, read s = some (x, t) ∧
      ((xs = [x] ∧ token? t = some (.closing b, r)) ∨
        ∃ t' ys, token? t = some (.comma, t') ∧ t'.length < s.length ∧
          readMoreItems? read b t' = some (ys, r) ∧ xs = x :: ys) := by
  rw [readMoreItems?] at h
  split at h
  · cases h
  · rename_i x t hread
    refine ⟨x, t, hread, ?_⟩
    split at h
    · rename_i t' hcomma
      split at h
      · rename_i hlength
        rcases Option.map_eq_some_iff.1 h with ⟨⟨ys, r'⟩, hrest, heq⟩
        cases heq
        exact .inr ⟨t', ys, hcomma, hlength, hrest, rfl⟩
      · cases h
    · rename_i b' t' hclosing
      split at h
      · rename_i hb
        cases h
        rw [hb] at hclosing
        exact .inl ⟨rfl, hclosing⟩
      · cases h
    · cases h

/-- No items, or at least one. -/
theorem readItems?_cases (h : readItems? read b s = some (xs, r)) :
    (xs = [] ∧ token? s = some (.closing b, r)) ∨ readMoreItems? read b s = some (xs, r) := by
  unfold readItems? at h
  split at h
  · rename_i b' t hclosing
    split at h
    · rename_i hb
      cases h
      rw [hb] at hclosing
      exact .inl ⟨rfl, hclosing⟩
    · cases h
  · exact .inr h

/-- A bracket that closes at once has no parts. -/
theorem readItems?_of_closing (h : token? s = some (.closing b, r)) :
    readItems? read b s = some ([], r) := by
  rw [readItems?, h]
  exact if_pos rfl

/-- Where there is a part the bracket does not close at once. -/
theorem readItems?_of_more (hclosing : RefusesClosing read)
    (h : readMoreItems? read b s = some (xs, r)) : readItems? read b s = some (xs, r) := by
  rw [readItems?]
  split
  · rename_i b' t htoken
    rw [readMoreItems?, hclosing _ _ _ htoken] at h
    cases h
  · exact h

/-- Items up to a closing bracket are taken whatever follows it. -/
theorem readMoreItems?_local (hlocal : IsLocal read) (h : readMoreItems? read b s = some (xs, r)) :
    ∃ d, s = d ++ r ∧ ∀ u, readMoreItems? read b (d ++ u) = some (xs, u) := by
  have hclosing : (Token.closing b).mark? = some (byte b.closingChar) := rfl
  have hcomma : Token.comma.mark? = some (byte ',') := rfl
  induction xs generalizing s with
  | nil =>
    rcases readMoreItems?_cases h with ⟨x, t, -, ⟨hxs, -⟩ | ⟨t', ys, -, -, -, hxs⟩⟩
    · cases hxs
    · cases hxs
  | cons x xs ih =>
    rcases readMoreItems?_cases h with ⟨y, t, hread, ⟨hxs, htoken⟩ | ⟨t', ys, htoken, -, hrest, hxs⟩⟩
    · cases hxs
      rcases hlocal _ _ _ hread with ⟨d, rfl, htakes⟩
      rcases (token?_eq_some_iff hclosing).1 htoken with ⟨blanks, hblanks, rfl⟩
      refine ⟨d ++ (blanks ++ [byte b.closingChar]), by simp, fun u => ?_⟩
      simp only [List.append_assoc, List.singleton_append]
      refine readMoreItems?_last (htakes _ (ends_mark hblanks hclosing u)) ?_
      exact (token?_eq_some_iff hclosing).2 ⟨blanks, hblanks, rfl⟩
    · cases hxs
      rcases ih hrest with ⟨d', rfl, hagain⟩
      rcases hlocal _ _ _ hread with ⟨d, rfl, htakes⟩
      rcases (token?_eq_some_iff hcomma).1 htoken with ⟨blanks, hblanks, rfl⟩
      refine ⟨d ++ (blanks ++ byte ',' :: d'), by simp, fun u => ?_⟩
      simp only [List.append_assoc, List.cons_append]
      refine readMoreItems?_comma (htakes _ (ends_mark hblanks hcomma _)) ?_ ?_ (hagain u)
      · exact (token?_eq_some_iff hcomma).2 ⟨blanks, hblanks, rfl⟩
      · simp only [List.length_append, List.length_cons]
        omega

/-- The parts of a bracket are taken again up to where it closes, whatever follows that. -/
theorem readItems?_local (hlocal : IsLocal read) (hrefuses : RefusesClosing read)
    (h : readItems? read b s = some (xs, r)) :
    ∃ d, s = d ++ r ∧ ∀ u, readItems? read b (d ++ u) = some (xs, u) := by
  rcases readItems?_cases h with ⟨rfl, htoken⟩ | hmore
  · rcases token?_local htoken with ⟨d, rfl, -, htakes⟩
    exact ⟨d, rfl, fun u => readItems?_of_closing (htakes u fun hm => by cases hm)⟩
  · rcases readMoreItems?_local hlocal hmore with ⟨d, rfl, hagain⟩
    exact ⟨d, rfl, fun u => readItems?_of_more hrefuses (hagain u)⟩

end

/-- A field does not start with a bracket that closes. -/
theorem refusesClosing_readField? : RefusesClosing readField? := by
  intro s b r h
  rw [readField?, h]

/-- A record is taken whatever follows it. -/
theorem readRecord?_local {s r : Bytes} {x : Record} (h : readRecord? s = some (x, r)) :
    ∃ d, s = d ++ r ∧ ∀ u, readRecord? (d ++ u) = some (x, u) := by
  have hitems {α : Type} {read : Bytes → Option (α × Bytes)} {b : Bracket} {t : Bytes}
      {f : List α → Record} (hlocal : IsLocal read) (hrefuses : RefusesClosing read)
      (htoken : token? s = some (.opening b, t))
      (hread : ∀ s t, token? s = some (.opening b, t) →
        readRecord? s = (readItems? read b t).map fun x => (f x.1, x.2)) :
      ∃ d, s = d ++ r ∧ ∀ u, readRecord? (d ++ u) = some (x, u) := by
    rw [hread s t htoken] at h
    rcases Option.map_eq_some_iff.1 h with ⟨⟨xs, r'⟩, hxs, heq⟩
    cases heq
    rcases readItems?_local hlocal hrefuses hxs with ⟨d, rfl, hagain⟩
    rcases token?_local htoken with ⟨c, rfl, -, htakes⟩
    refine ⟨c ++ d, (List.append_assoc c d _).symm, fun u => ?_⟩
    have htoken' := htakes (d ++ u) fun hm => by cases hm
    rw [List.append_assoc, hread _ _ htoken', hagain u]
    rfl
  unfold readRecord? at h
  split at h
  · rename_i t htoken
    exact hitems (f := .named) isLocal_readNamedField? refusesClosing_readNamedField? htoken
      fun s t htoken => by rw [readRecord?, htoken]
  · rename_i t htoken
    exact hitems (f := .listed) isLocal_readField? refusesClosing_readField? htoken
      fun s t htoken => by rw [readRecord?, htoken]
  · cases h

end MetricRelay.Json
