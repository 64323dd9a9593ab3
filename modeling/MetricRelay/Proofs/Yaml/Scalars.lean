import Mathlib.Tactic.Common
import MetricRelay.Proofs.Yaml.Block

/-!
# Scalars of a block text

A word is read to the colon behind it, or to the end of its line.  There a plain scalar may go
on in a later line, but no further than the lines that are to the right of the block; so the
reader passes the lines without content and stops in front of the next field, or at a comment.
In double quotes every printable text reads as itself.

Main definitions:

- `Block.Next`: what stands behind a line.
- `Block.Lands`: what the lines without content lead to.

Main results:

- `Block.readPlain_key`, `Block.readPlain_value`: a word as a name and as a value.
- `Block.readQuoted_eq`: a text in double quotes.
-/

namespace MetricRelay.Yaml

/-! ## Places -/

namespace Cursor

@[simp] theorem rest_skip (c : Cursor) (n : Nat) : (c.skip n).rest = c.rest.drop n := rfl

@[simp] theorem column_skip (c : Cursor) (n : Nat) : (c.skip n).column = c.column + n := rfl

@[simp] theorem skip_zero (c : Cursor) : c.skip 0 = c := rfl

theorem skip_skip (c : Cursor) (m n : Nat) : (c.skip m).skip n = c.skip (m + n) := by
  simp only [skip, Position.right, List.drop_drop, Nat.add_assoc]

/-- Past the first of two parts. -/
theorem rest_skip_append {c : Cursor} {s t : List Char} (h : c.rest = s ++ t) :
    (c.skip s.length).rest = t := by
  rw [rest_skip, h, List.drop_left]

/-- Past some blanks. -/
theorem rest_skip_blanks {c : Cursor} {k : Nat} {s : List Char}
    (h : c.rest = List.replicate k ' ' ++ s) : (c.skip k).rest = s := by
  rw [rest_skip, h, List.drop_left' List.length_replicate]

/-- The end of a line is one feed. -/
theorem readBreak?_feed {c : Cursor} {r : List Char} (h : c.rest = '\n' :: r) :
    c.readBreak? = some ('\n', ⟨r, c.position.down 1⟩) := by
  rw [readBreak?, h]
  rfl

/-- No line ends before a character that ends none. -/
theorem readBreak?_eq_none {c : Cursor} {x : Char} {r : List Char} (h : c.rest = x :: r)
    (hx : isBreak x = false) : c.readBreak? = none := by
  have hreturn : x ≠ '\r' := by
    rintro rfl
    cases hx
  have hseparators : ¬(x = '\u2028' ∨ x = '\u2029') := by
    rintro (rfl | rfl) <;> cases hx
  rw [readBreak?, h]
  split
  · rename_i heq
    cases heq
    exact absurd rfl hreturn
  · rename_i heq
    cases heq
    simp [hseparators, hx]
  · rename_i heq
    cases heq

theorem readBreak?_nil {c : Cursor} (h : c.rest = []) : c.readBreak? = none := by
  rw [readBreak?, h]

end Cursor

/-! ## Characters -/

/-- A character of a word is not one that no word has. -/
theorem ne_of_isWord {c d : Char} (hc : isWord c = true) (hd : isWord d = false) : c ≠ d := by
  rintro rfl
  cases hc.symm.trans hd

/-- Every gap is one of seven characters. -/
theorem mem_of_isGap {c : Char} (h : isGap c = true) :
    c ∈ [' ', '\t', '\n', '\r', '\u0085', '\u2028', '\u2029'] := by
  simpa [isGap, isSpace, isBreak, or_assoc] using h

/-- The only gap that is printable is a blank. -/
theorem isGap_of_isPrintable {c : Char} (h : isPrintable c = true) (hblank : c ≠ ' ') :
    isGap c = false := by
  have hgaps : (['\t', '\n', '\r', '\u0085', '\u2028', '\u2029'].all
      fun d => !isPrintable d) = true := rfl
  refine Bool.eq_false_iff.2 fun hgap => ?_
  rcases List.mem_cons.1 (mem_of_isGap hgap) with hc | hc
  · exact hblank hc
  · have hnot := List.all_eq_true.1 hgaps c hc
    rw [h] at hnot
    cases hnot

theorem isGap_of_isWord {c : Char} (h : isWord c = true) : isGap c = false :=
  isGap_of_isPrintable (Block.isPrintable_of_isWord h) (ne_of_isWord h (by decide))

theorem isBreak_of_isGap {c : Char} (h : isGap c = false) : isBreak c = false :=
  (Bool.or_eq_false_iff.1 h).2

theorem isSpace_of_isGap {c : Char} (h : isGap c = false) : isSpace c = false :=
  (Bool.or_eq_false_iff.1 h).1

/-- Another character than that of a mark starts no mark. -/
theorem startsMark_eq_false {c x : Char} {r : List Char} (h : x ≠ c) :
    startsMark c (x :: r) = false := by
  unfold startsMark
  split
  · rename_i heq
    cases heq
    simp [h]
  · rfl

/-! ## Blanks in a gap -/

namespace Gap

/-- Some blanks more. -/
def addBlanks (g : Gap) (k : Nat) : Gap :=
  if g.broken then g else { g with spaces := g.spaces ++ List.replicate k ' ' }

@[simp] theorem broken_addBlanks (g : Gap) (k : Nat) : (g.addBlanks k).broken = g.broken := by
  unfold addBlanks
  split <;> rfl

@[simp] theorem broken_addBreak (g : Gap) (c : Char) : (g.addBreak c).broken = true := by
  unfold addBreak
  split
  · assumption
  · rfl

@[simp] theorem addBlanks_zero (g : Gap) : g.addBlanks 0 = g := by
  unfold addBlanks
  split
  · rfl
  · rw [List.replicate_zero, List.append_nil]

theorem addBlanks_addSpace (g : Gap) (k : Nat) :
    (g.addSpace ' ').addBlanks k = g.addBlanks (k + 1) := by
  unfold addSpace addBlanks
  by_cases hbroken : g.broken = true
  · simp only [hbroken, if_true]
  · simp [hbroken, List.replicate_succ]

/-- Blanks are passed one by one. -/
theorem read_blanks {indent n : Nat} {s : List Char} : ∀ {k : Nat} {g : Gap} {c : Cursor},
    c.rest = List.replicate k ' ' ++ s →
      g.read indent (n + k) c = (g.addBlanks k).read indent n (c.skip k)
  | 0, g, c, _ => by simp
  | k + 1, g, c, h => by
    have hrest : c.rest = ' ' :: (List.replicate k ' ' ++ s) := h
    have hskip : (c.skip 1).rest = List.replicate k ' ' ++ s := by
      rw [Cursor.rest_skip, hrest]
      rfl
    have hbreak := Cursor.readBreak?_eq_none hrest (by decide)
    rw [← Nat.add_assoc, read, hbreak, hrest]
    have htab : ' ' ≠ '\t' := by decide
    simp only [show isSpace ' ' = true from rfl, if_true, htab, decide_false, Bool.and_false,
      Bool.false_and, Bool.false_eq_true, if_false]
    rw [read_blanks hskip, addBlanks_addSpace, Cursor.skip_skip, Nat.add_comm 1]

/-- A gap ends before content. -/
theorem read_content {indent n : Nat} {g : Gap} {c : Cursor} {x : Char} {r : List Char}
    (h : c.rest = x :: r) (hx : isGap x = false) : g.read indent (n + 1) c = .ok (g, c) := by
  rw [read, Cursor.readBreak?_eq_none h (isBreak_of_isGap hx), h]
  simp only [isSpace_of_isGap hx, Bool.false_eq_true, if_false]

/-- A gap ends at the end of the text. -/
theorem read_nil {indent n : Nat} {g : Gap} {c : Cursor} (h : c.rest = []) :
    g.read indent (n + 1) c = .ok (g, c) := by
  rw [read, Cursor.readBreak?_nil h, h]

/-- A gap goes on behind a line end. -/
theorem read_feed {indent n : Nat} {g : Gap} {c : Cursor} {r : List Char}
    (h : c.rest = '\n' :: r) :
    g.read indent (n + 1) c = (g.addBreak '\n').read indent n ⟨r, c.position.down 1⟩ := by
  rw [read, Cursor.readBreak?_feed h]

end Gap

namespace Block

/-! ## Lines without content -/

/-- Whether a text starts with content. -/
def startsContent : List Char → Bool
  | [] => false
  | c :: _ => !isGap c && c ≠ '#' && c ≠ '\ufeff'

/-- What stands behind a line: nothing, or a line with content from some column on. -/
inductive Next where
  | ending
  | line (column : Nat) (rest : List Char)

namespace Next

/-- The characters behind a line. -/
def chars : Next → List Char
  | ending => []
  | line column rest => '\n' :: (List.replicate column ' ' ++ rest)

/-- A line behind another one starts with content. -/
def HasContent : Next → Prop
  | ending => True
  | line _ rest => startsContent rest = true

/-- No line further to the right than a column follows. -/
def Within (column : Nat) : Next → Prop
  | ending => True
  | line c _ => c ≤ column

end Next

/-- A text from some column on leads to what comes next, over blanks, comments and line ends.
Where a line has content, a key must be allowed; it is behind every line end. -/
inductive Lands : Next → Bool → Nat → List Char → Prop
  | here {column start k : Nat} {rest : List Char} (hcontent : startsContent rest = true)
      (hcolumn : start + k = column) :
      Lands (.line column rest) true start (List.replicate k ' ' ++ rest)
  | finish {allowed : Bool} {start : Nat} (b : Blank) : Lands .ending allowed start b.chars
  | next {t : Next} {allowed : Bool} {start : Nat} {s : List Char} (b : Blank)
      (h : Lands t true 0 s) : Lands t allowed start (b.chars ++ '\n' :: s)

/-- Content starts with a character that is neither a gap nor the mark of a comment. -/
theorem exists_of_startsContent {s : List Char} (h : startsContent s = true) :
    ∃ c r, s = c :: r ∧ isGap c = false ∧ c ≠ '#' ∧ c ≠ '\ufeff' := by
  cases s with
  | nil => cases h
  | cons c r => exact ⟨c, r, rfl, by simpa [startsContent, and_assoc] using h⟩

/-- The end of a line leads to what stands behind it. -/
theorem lands_ending {t : Next} (ht : t.HasContent) (e : Ending) (allowed : Bool) (start : Nat) :
    Lands t allowed start (e.chars ++ t.chars) := by
  suffices h : ∀ (more : List Blank) (b : Blank) (allowed : Bool) (start : Nat),
      Lands t allowed start (b.chars ++ (more.flatMap ('\n' :: ·.chars) ++ t.chars)) by
    rw [Ending.chars, List.append_assoc]
    exact h e.more e.first allowed start
  intro more
  induction more with
  | nil =>
    intro b allowed start
    cases t with
    | ending =>
      rw [List.flatMap_nil, Next.chars, List.nil_append, List.append_nil]
      exact .finish b
    | line column rest => exact .next b (.here ht (Nat.zero_add column))
  | cons b' more ih =>
    intro b allowed start
    rw [List.flatMap_cons, List.cons_append, List.cons_append, List.append_assoc]
    exact .next b (ih b' true 0)

/-- Where a plain scalar looks whether it goes on: at the end of the text, at a comment, or
at the next content. -/
def Stops (t : Next) (c : Cursor) : Prop :=
  c.rest = [] ∨ startsWith ['#'] c.rest = true ∨ ∃ column rest, t = .line column rest ∧
    c.column = column

/-- A gap ends where a plain scalar looks whether it goes on, and from there the text leads to
what comes next. -/
def ReadsTo (t : Next) (indent n : Nat) (g : Gap) (c : Cursor) : Prop :=
  ∃ g' c', g.read indent n c = .ok (g', c') ∧ Lands t g'.broken c'.column c'.rest ∧
    c'.rest.length ≤ c.rest.length ∧ Stops t c'

section

variable {t : Next} {indent n : Nat} {g : Gap} {c : Cursor} {s : List Char}

/-- Blanks are read as a part of the gap. -/
theorem ReadsTo.blanks {k : Nat} (hrest : c.rest = List.replicate k ' ' ++ s)
    (h : ReadsTo t indent n (g.addBlanks k) (c.skip k)) : ReadsTo t indent (n + k) g c := by
  rcases h with ⟨g', c', hread, hlands, hle, hstops⟩
  refine ⟨g', c', (Gap.read_blanks hrest).trans hread, hlands, Nat.le_trans hle ?_, hstops⟩
  exact (List.drop_sublist _ _).length_le

/-- A line feed is read as a part of the gap. -/
theorem ReadsTo.feed (hrest : c.rest = '\n' :: s)
    (h : ReadsTo t indent n (g.addBreak '\n') ⟨s, c.position.down 1⟩) :
    ReadsTo t indent (n + 1) g c := by
  rcases h with ⟨g', c', hread, hlands, hle, hstops⟩
  refine ⟨g', c', (Gap.read_feed hrest).trans hread, hlands, Nat.le_trans hle ?_, hstops⟩
  rw [hrest]
  exact Nat.le_succ _

/-- A comment is read to the end of its line. -/
theorem readsTo_comment {text : List Char} (hrest : c.rest = '#' :: text)
    (hlands : Lands t g.broken c.column c.rest) : ReadsTo t indent (n + 1) g c :=
  ⟨g, c, Gap.read_content hrest (by decide), hlands, Nat.le_refl _,
    .inr (.inl (by rw [hrest]; rfl))⟩

end

/-- The lines without content are a gap up to the first comment. -/
theorem read_lands {t : Next} {allowed : Bool} {start : Nat} {s : List Char}
    (h : Lands t allowed start s) {indent : Nat} : ∀ {n : Nat} {g : Gap} {c : Cursor},
      c.rest = s → c.column = start → g.broken = allowed → s.length < n →
        ReadsTo t indent n g c := by
  induction h with
  | @here column start k rest hcontent hcolumn =>
    intro n g c hrest hstart hbroken hn
    rcases exists_of_startsContent hcontent with ⟨x, r, rfl, hx, -⟩
    have hskip := Cursor.rest_skip_blanks hrest
    have hat : (c.skip k).column = column := by rw [Cursor.column_skip, hstart, hcolumn]
    rw [List.length_append, List.length_replicate, List.length_cons] at hn
    obtain ⟨m, rfl⟩ : ∃ m, n = m + 1 + k := ⟨n - 1 - k, by omega⟩
    refine .blanks hrest ⟨_, _, Gap.read_content hskip hx, ?_, Nat.le_refl _,
      .inr (.inr ⟨column, _, rfl, hat⟩)⟩
    rw [Gap.broken_addBlanks, hbroken, hat, hskip]
    exact .here (k := 0) hcontent (Nat.add_zero column)
  | @finish allowed start b =>
    intro n g c hrest hstart hbroken hn
    have hskip := Cursor.rest_skip_blanks hrest
    rw [Blank.chars, List.length_append, List.length_replicate] at hn
    obtain ⟨m, rfl⟩ : ∃ m, n = m + 1 + b.spaces := ⟨n - 1 - b.spaces, by omega⟩
    refine .blanks hrest ?_
    have hlands : Lands .ending (g.addBlanks b.spaces).broken (c.skip b.spaces).column
        (commentChars b.comment) := .finish { b with spaces := 0 }
    rw [← hskip] at hlands
    cases hcomment : b.comment with
    | none =>
      rw [hcomment] at hskip
      exact ⟨_, _, Gap.read_nil hskip, hlands, Nat.le_refl _, .inl hskip⟩
    | some text =>
      rw [hcomment] at hskip
      exact readsTo_comment hskip hlands
  | @next t allowed start s b h ih =>
    intro n g c hrest hstart hbroken hn
    rw [Blank.chars, List.append_assoc] at hrest hn
    have hskip := Cursor.rest_skip_blanks hrest
    simp only [List.length_append, List.length_replicate, List.length_cons] at hn
    obtain ⟨m, rfl⟩ : ∃ m, n = m + 1 + b.spaces := ⟨n - 1 - b.spaces, by omega⟩
    refine .blanks hrest ?_
    cases hcomment : b.comment with
    | none =>
      rw [hcomment] at hskip
      exact .feed hskip (ih rfl rfl (Gap.broken_addBreak _ _) (by omega))
    | some text =>
      have hlands : Lands t (g.addBlanks b.spaces).broken (c.skip b.spaces).column
          (commentChars b.comment ++ '\n' :: s) := .next { b with spaces := 0 } h
      rw [← hskip] at hlands
      rw [hcomment] at hskip
      exact readsTo_comment hskip hlands

/-! ## Words -/

/-- A word is a part of a plain scalar. -/
theorem plainPart_append {w s : List Char} (hw : w.all isWord = true)
    (hs : plainPart false s = .ok []) : plainPart false (w ++ s) = .ok w := by
  induction w with
  | nil => exact hs
  | cons c w ih =>
    rw [List.all_cons, Bool.and_eq_true] at hw
    have hcolon : c ≠ ':' := ne_of_isWord hw.1 (by decide)
    rw [List.cons_append, plainPart, ih hw.2]
    simp [isGap_of_isWord hw.1, hcolon, Except.map]

/-- A part of a plain scalar ends at a gap. -/
theorem plainPart_of_startsGap {s : List Char} (h : startsGap s = true) :
    plainPart false s = .ok [] := by
  cases s with
  | nil => rfl
  | cons c r =>
    have hgap : isGap c = true := h
    rw [plainPart, if_pos hgap]

/-- A part of a plain scalar ends at the colon of a key. -/
theorem plainPart_colon {r : List Char} (h : startsGap r = true) :
    plainPart false (':' :: r) = .ok [] := by
  rw [plainPart, h]
  rfl

/-- A word is read as one part, and what stands behind it decides what follows. -/
theorem readPlainFrom_word {w : Word} {s : List Char} {indent n : Nat} {c : Cursor}
    (hrest : c.rest = w.chars ++ s) (hs : plainPart false s = .ok []) :
    readPlainFrom false indent (n + 1) .none c =
      if !s.isEmpty && startsGap s then do
        let (gap, c) ← Gap.none.read indent n (c.skip w.chars.length)
        if c.column < indent then return (w.chars, gap.broken, c)
        let (more, broken, c) ← readPlainFrom false indent n gap c
        return (w.chars ++ more, broken, c)
      else .ok (w.chars, false, c.skip w.chars.length) := by
  have hdot : w.first ≠ '.' := ne_of_isWord w.isWord_first (by decide)
  have hmark : startsDocumentMark c.rest = false := by
    rw [hrest, startsDocumentMark, Word.chars, List.cons_append, startsMark_eq_false w.first_ne,
      startsMark_eq_false hdot]
    rfl
  have hcomment : startsWith ['#'] c.rest = false := by
    have hne : w.first ≠ '#' := ne_of_isWord w.isWord_first (by decide)
    simp [hrest, Word.chars, startsWith, hne]
  have hskip := Cursor.rest_skip_append hrest
  have hpart : plainPart false c.rest = .ok w.chars := by
    rw [hrest, plainPart_append w.all_isWord hs]
  have hnonempty : w.chars.isEmpty = false := rfl
  rw [readPlainFrom, hmark, hcomment, hpart]
  simp only [Bool.and_false, Bool.or_false, Bool.false_eq_true, if_false, bind, Except.bind,
    hnonempty, hskip, Bool.not_false, Bool.true_and, decide_eq_true_eq]
  rfl

/-- A word before the colon of a key. -/
theorem readPlain_key {w : Word} {r : List Char} {indent : Nat} {c : Cursor}
    (hrest : c.rest = w.chars ++ ':' :: r) (hr : startsGap r = true) :
    readPlain false indent c = .ok (w.chars, false, c.skip w.chars.length) := by
  rw [readPlain, readPlainFrom_word hrest (plainPart_colon hr)]
  rfl

/-- A plain scalar does not go on with a comment, nor at the end of the text. -/
theorem readPlainFrom_stop {indent n : Nat} {gap : Gap} {c : Cursor}
    (h : c.rest = [] ∨ startsWith ['#'] c.rest = true) :
    readPlainFrom false indent (n + 1) gap c = .ok ([], gap.broken, c) := by
  rw [readPlainFrom]
  rcases h with h | h
  · rw [h]
    simp [startsDocumentMark, startsMark, startsWith, plainPart, h, bind, Except.bind, pure,
      Except.pure]
  · rw [h, Bool.or_true, if_pos rfl]
    rfl

/-- A word at the end of its line, behind which no line is further to the right than the
block. -/
theorem readPlain_value {w : Word} {s : List Char} {t : Next} {column : Nat} {c : Cursor}
    (hrest : c.rest = w.chars ++ s) (hs : startsGap s = true)
    (ht : t.Within column) (hlands : Lands t false (c.column + w.chars.length) s) :
    ∃ broken c', readPlain false (column + 1) c = .ok (w.chars, broken, c') ∧
      Lands t broken c'.column c'.rest ∧ c'.rest.length ≤ s.length := by
  have hskip := Cursor.rest_skip_append hrest
  rw [readPlain, readPlainFrom_word hrest (plainPart_of_startsGap hs), hs, Bool.and_true]
  cases hempty : s.isEmpty with
  | true =>
    rw [List.isEmpty_iff] at hempty
    refine ⟨false, _, rfl, ?_⟩
    rw [hskip]
    exact ⟨hlands, Nat.le_refl _⟩
  | false =>
    have hlength : s.length < c.rest.length := by
      rw [hrest, List.length_append, Word.chars, List.length_cons]
      omega
    rcases read_lands hlands (g := .none) hskip rfl rfl hlength with
      ⟨gap, c', hread, hlands', hle, hstops⟩
    rw [hskip] at hle
    rw [Bool.not_false, if_pos rfl, hread]
    by_cases hcolumn : c'.column < column + 1
    · exact ⟨gap.broken, c', by simp [hcolumn, bind, Except.bind, pure, Except.pure], hlands', hle⟩
    · have hstop : c'.rest = [] ∨ startsWith ['#'] c'.rest = true := by
        rcases hstops with hstop | hstop | ⟨column', rest, rfl, hat⟩
        · exact .inl hstop
        · exact .inr hstop
        · have hle : column' ≤ column := ht
          omega
      obtain ⟨n, hn⟩ : ∃ n, c.rest.length = n + 1 := ⟨c.rest.length - 1, by omega⟩
      refine ⟨gap.broken, c', ?_, hlands', hle⟩
      simp [hcolumn, hn, readPlainFrom_stop hstop, bind, Except.bind, pure, Except.pure]

/-! ## Texts in double quotes -/

@[simp] theorem escape_append (t u : List Char) : escape (t ++ u) = escape t ++ escape u :=
  List.flatMap_append

theorem escape_blanks (k : Nat) : escape (List.replicate k ' ') = List.replicate k ' ' := by
  induction k with
  | zero => rfl
  | succ k ih =>
    rw [List.replicate_succ]
    exact congrArg (' ' :: ·) ih

/-- Nothing gets shorter by escapes. -/
theorem length_le_escape (t : List Char) : t.length ≤ (escape t).length := by
  induction t with
  | nil => exact Nat.le_refl 0
  | cons c t ih =>
    have hescape : escape (c :: t) = escapeChar c ++ escape t := List.flatMap_cons
    have hchar : 1 ≤ (escapeChar c).length := by
      unfold escapeChar
      split <;> simp
    rw [hescape, List.length_append, List.length_cons]
    omega

/-- A text up to its first blanks, the blanks, and what stands behind them. -/
theorem exists_split_blanks (t : List Char) :
    ∃ run k later, t = run ++ (List.replicate k ' ' ++ later) ∧ ' ' ∉ run ∧
      (∀ r, later ≠ ' ' :: r) ∧ (k = 0 → later = []) := by
  induction t with
  | nil => exact ⟨[], 0, [], rfl, List.not_mem_nil, fun r => by simp, fun _ => rfl⟩
  | cons c t ih =>
    rcases ih with ⟨run, k, later, rfl, hrun, hlater, hk⟩
    by_cases hc : c = ' '
    · subst hc
      cases run with
      | nil => exact ⟨[], k + 1, later, rfl, hrun, hlater, by simp⟩
      | cons d run =>
        have hd : d ≠ ' ' := fun h => hrun (by rw [h]; exact List.mem_cons_self)
        exact ⟨[], 1, d :: (run ++ (List.replicate k ' ' ++ later)), rfl, List.not_mem_nil,
          fun r h => hd (List.cons.inj h).1, by simp⟩
    · exact ⟨c :: run, k, later, rfl, by simp [hrun, Ne.symm hc], hlater, hk⟩

/-- A text in quotes that does not start with a blank goes on with no gap. -/
theorem exists_of_escape {t s : List Char} (ht : t.all isPrintable = true)
    (hblank : ∀ r, t ≠ ' ' :: r) :
    ∃ x r, escape t ++ '"' :: s = x :: r ∧ isGap x = false := by
  cases t with
  | nil => exact ⟨'"', s, rfl, by decide⟩
  | cons c t =>
    rw [List.all_cons, Bool.and_eq_true] at ht
    have hgap := isGap_of_isPrintable ht.1 fun h => hblank t (by rw [h])
    by_cases hc : c = '"' ∨ c = '\\'
    · exact ⟨'\\', _, by rw [escape, List.flatMap_cons, escapeChar, if_pos hc]; rfl, by decide⟩
    · exact ⟨c, _, by rw [escape, List.flatMap_cons, escapeChar, if_neg hc]; rfl, hgap⟩

/-- A part of a text in quotes ends at a blank or a quote. -/
theorem readQuotedPart_stop {n : Nat} {c : Cursor} {x : Char} {r : List Char}
    (hrest : c.rest = x :: r) (hx : x = ' ' ∨ x = '"') :
    readQuotedPart '"' (n + 1) c = .ok ([], .here, c) := by
  rw [readQuotedPart, hrest]
  rcases hx with rfl | rfl <;> rfl

/-- A quote or a backslash behind a backslash. -/
theorem readQuotedPart_escaped {n : Nat} {c : Cursor} {x : Char} {r : List Char}
    (hrest : c.rest = '\\' :: x :: r) (hx : x = '"' ∨ x = '\\') :
    readQuotedPart '"' (n + 1) c =
      (readQuotedPart '"' n (c.skip 2)).map fun part => (x :: part.1, part.2) := by
  have hgap : isBreak x = false := by
    rcases hx with rfl | rfl <;> rfl
  have hskip : (c.skip 1).rest = x :: r := by
    rw [Cursor.rest_skip, hrest]
    rfl
  have hescape : readEscape? x r = some (x, 2) := by
    rcases hx with rfl | rfl <;> rfl
  rw [readQuotedPart, hrest]
  simp [show isGap '\\' = false from rfl, Cursor.readBreak?_eq_none hskip hgap, hescape]

/-- A character that stands for itself. -/
theorem readQuotedPart_plain {n : Nat} {c : Cursor} {x : Char} {r : List Char}
    (hrest : c.rest = x :: r) (hgap : isGap x = false) (hx : ¬(x = '"' ∨ x = '\\')) :
    readQuotedPart '"' (n + 1) c =
      (readQuotedPart '"' n (c.skip 1)).map fun part => (x :: part.1, part.2) := by
  rw [not_or] at hx
  rw [readQuotedPart, hrest]
  simp [hgap, hx]

/-- A part of a text in quotes without blanks. -/
theorem readQuotedPart_eq {s : List Char} {y : Char} (hy : y = ' ' ∨ y = '"') :
    ∀ {t : List Char} {n : Nat} {c : Cursor}, t.all isPrintable = true → ' ' ∉ t →
      c.rest = escape t ++ y :: s → t.length < n →
        readQuotedPart '"' n c = .ok (t, .here, c.skip (escape t).length)
  | [], n + 1, c, _, _, hrest, _ => readQuotedPart_stop hrest hy
  | x :: t, n + 1, c, ht, hblank, hrest, hn => by
    rw [List.all_cons, Bool.and_eq_true] at ht
    rw [List.mem_cons, not_or] at hblank
    have hescape : escape (x :: t) = escapeChar x ++ escape t := List.flatMap_cons
    rw [hescape, List.append_assoc] at hrest
    have hlater := readQuotedPart_eq hy ht.2 hblank.2 (Cursor.rest_skip_append hrest)
      (Nat.lt_of_succ_lt_succ hn)
    rw [hescape, List.length_append, ← Cursor.skip_skip]
    by_cases hx : x = '"' ∨ x = '\\'
    · have hchar : escapeChar x = ['\\', x] := if_pos hx
      rw [hchar] at hrest hlater ⊢
      rw [readQuotedPart_escaped hrest hx, show c.skip 2 = c.skip ['\\', x].length from rfl,
        hlater]
      rfl
    · have hchar : escapeChar x = [x] := if_neg hx
      rw [hchar] at hrest hlater ⊢
      rw [readQuotedPart_plain hrest (isGap_of_isPrintable ht.1 (Ne.symm hblank.1)) hx,
        show c.skip 1 = c.skip [x].length from rfl, hlater]
      rfl

/-- A text in quotes, part by part: the blanks between two parts stand in it as they are. -/
theorem readQuotedFrom_eq {s : List Char} : ∀ {n : Nat} {t : List Char} {c : Cursor},
    t.all isPrintable = true → c.rest = escape t ++ '"' :: s → 0 < c.column → t.length + 1 < n →
      readQuotedFrom '"' n c = .ok (t, c.skip ((escape t).length + 1))
  | n + 1, t, c, ht, hrest, hcolumn, hn => by
    rcases exists_split_blanks t with ⟨run, k, later, rfl, hrun, hlater, hk⟩
    rw [List.all_append, List.all_append, Bool.and_eq_true, Bool.and_eq_true] at ht
    have hnonempty : c.rest.isEmpty = false := by
      rw [hrest]
      simp
    rw [readQuotedFrom]
    simp only [Nat.ne_of_gt hcolumn, decide_false, Bool.false_and, Bool.false_eq_true, if_false,
      hnonempty]
    have hat : (c.skip (escape run).length).rest =
        List.replicate k ' ' ++ (escape later ++ '"' :: s) := by
      rw [Cursor.rest_skip, hrest, escape_append, escape_append, escape_blanks,
        List.append_assoc, List.append_assoc, List.drop_left]
    simp only [List.length_append, List.length_replicate] at hn
    cases k with
    | zero =>
      obtain rfl := hk rfl
      rw [escape_append, List.append_assoc] at hrest
      rw [readQuotedPart_eq (.inr rfl) ht.1 hrun hrest (by omega)]
      have hquote : startsWith ['"'] (c.skip (escape run).length).rest = true := by
        rw [hat]
        rfl
      simp only [bind, Except.bind, pure, Except.pure, hquote, if_true, Cursor.skip_skip]
      simp [escape]
    | succ k =>
      rw [escape_append, escape_append, escape_blanks, List.replicate_succ, List.append_assoc,
        List.append_assoc, List.cons_append] at hrest
      rw [readQuotedPart_eq (.inl rfl) ht.1 hrun hrest (by omega)]
      have hquote : startsWith ['"'] (c.skip (escape run).length).rest = false := by
        rw [hat]
        rfl
      -- The gap ends at the next part, which is read with one step less.
      rcases exists_of_escape ht.2.2 hlater (s := s) with ⟨x, r, hx, hgap⟩
      have hbehind := Cursor.rest_skip_blanks hat
      obtain ⟨m, hm⟩ : ∃ m, n = m + 1 + (k + 1) := ⟨n - 1 - (k + 1), by omega⟩
      have hread : Gap.none.read 0 n (c.skip (escape run).length) =
          .ok (Gap.none.addBlanks (k + 1), (c.skip (escape run).length).skip (k + 1)) := by
        rw [hm, Gap.read_blanks hat, Gap.read_content (hbehind.trans hx) hgap]
      have hmore := readQuotedFrom_eq (n := n) ht.2.2 hbehind
        (Nat.lt_of_lt_of_le hcolumn (by simp only [Cursor.column_skip]; omega)) (by omega)
      simp only [bind, Except.bind, pure, Except.pure, hquote, Bool.false_eq_true, if_false, hread,
        hmore]
      simp [Cursor.skip_skip, Gap.addBlanks, Gap.none, Gap.text, escape_blanks, Nat.add_assoc]

/-- A text in double quotes reads as itself. -/
theorem readQuoted_eq {q : Quoted} {s : List Char} {c : Cursor} (hrest : c.rest = q.chars ++ s) :
    readQuoted '"' c = .ok (q.text, c.skip q.chars.length) := by
  have hinner : (c.skip 1).rest = escape q.text ++ '"' :: s := by
    rw [Cursor.rest_skip, hrest, Quoted.chars]
    simp
  have hle := length_le_escape q.text
  have hlength : q.text.length + 1 < c.rest.length + 2 := by
    rw [hrest, Quoted.chars]
    simp only [List.cons_append, List.length_cons, List.length_append]
    omega
  rw [readQuoted, readQuotedFrom_eq q.isPrintable_text hinner (by simp) hlength,
    Cursor.skip_skip, Quoted.chars]
  simp [Nat.add_comm]

end Block

end MetricRelay.Yaml
