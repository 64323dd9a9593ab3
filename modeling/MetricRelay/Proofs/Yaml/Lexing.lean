import MetricRelay.Proofs.Number.Literal
import MetricRelay.Proofs.Yaml.Scalars

/-!
# Tokens of a block text

The lexer goes through a block text field by field.  In front of a field it knows the columns
of the open blocks and no key has started; behind the field it is in front of the next one,
having found the tokens of the field.

Main definitions:

- `Lexer.Runs`: the tokens that a run of the lexer gives, however many steps it may take.
- `Lexer.Stands`: the state in front of a field.

Main results:

- `Lexer.runs_line`, `Lexer.runs_lines`, `Lexer.runs_items`: what fields and records give.
- `Block.tokens_chars`: the tokens of a block text.
-/

namespace MetricRelay.Yaml

open MetricRelay.Yaml.Block (Blank Item Lands Line Name Next startsContent)

/-! ## Lines and items that come next -/

namespace Block

namespace Next

/-- Some fields in a column, and what comes behind them. -/
def lines (column : Nat) : List Line → Next → Next
  | [], t => t
  | l :: ls, t => .line column (l.chars ++ (lines column ls t).chars)

/-- Some items, with which the text ends. -/
def items : List Item → Next
  | [] => .ending
  | i :: is => .line 0 (i.chars ++ (items is).chars)

theorem chars_lines (column : Nat) (ls : List Line) (t : Next) :
    (lines column ls t).chars = lineChars column ls ++ t.chars := by
  induction ls with
  | nil => rfl
  | cons l ls ih =>
    rw [lines, chars, ih]
    simp only [lineChars, List.flatMap_cons, List.cons_append, List.append_assoc]

theorem chars_items (is : List Item) : (items is).chars = itemChars is := by
  induction is with
  | nil => rfl
  | cons i is ih =>
    rw [items, chars, ih]
    rfl

end Next

end Block

/-! ## Where names and values start -/

namespace Block

/-- A word starts content. -/
theorem startsContent_of_isWord {c : Char} {r : List Char} (h : isWord c = true) :
    startsContent (c :: r) = true := by
  have hcomment : c ≠ '#' := ne_of_isWord h (by decide)
  have hmark : c ≠ '\ufeff' := ne_of_isWord h (by decide)
  simp [startsContent, isGap_of_isWord h, hcomment, hmark]

/-- A name starts content. -/
theorem Name.startsContent (k : Name) (s : List Char) :
    Block.startsContent (k.chars ++ s) = true := by
  cases k with
  | word w => exact startsContent_of_isWord w.isWord_first
  | quoted q => rfl

theorem Name.length_pos (k : Name) : 0 < k.chars.length := by
  cases k <;> simp [chars, Word.chars, Quoted.chars]

/-- A name is short enough to be a key. -/
theorem Name.length_le (k : Name) : k.chars.length ≤ 1024 := by
  cases k with
  | word w hshort => exact hshort
  | quoted q hshort => exact hshort

/-- A scalar that is there starts content. -/
theorem Scalar.startsContent {v : Scalar} (hv : v ≠ .nothing) (s : List Char) :
    Block.startsContent (v.chars ++ s) = true := by
  cases v with
  | nothing => exact absurd rfl hv
  | word w => exact startsContent_of_isWord w.isWord_first
  | quoted q => rfl

/-- A line starts content, with its name. -/
theorem Line.startsContent (l : Line) (s : List Char) :
    Block.startsContent (l.chars ++ s) = true := by
  rw [Line.chars, List.append_assoc]
  exact l.name.startsContent _

/-- An item starts content. -/
theorem Item.startsContent (i : Item) (s : List Char) :
    Block.startsContent (i.chars ++ s) = true := by
  cases i with
  | line l => exact l.startsContent s
  | record r =>
    rw [Item.chars, Section.chars, List.append_assoc]
    exact r.head.startsContent _

namespace Next

/-- Lines have content if there is some after them. -/
theorem hasContent_lines {t : Next} (ht : t.HasContent) (column : Nat) (ls : List Line) :
    (lines column ls t).HasContent := by
  cases ls with
  | nil => exact ht
  | cons l ls => exact l.startsContent _

/-- Lines of a block are within it. -/
theorem within_lines {t : Next} {column : Nat} (ht : t.Within column) (ls : List Line) :
    (lines column ls t).Within column := by
  cases ls with
  | nil => exact ht
  | cons l ls => exact Nat.le_refl column

theorem hasContent_items (is : List Item) : (items is).HasContent := by
  cases is with
  | nil => trivial
  | cons i is => exact i.startsContent _

theorem within_items (is : List Item) (column : Nat) : (items is).Within column := by
  cases is with
  | nil => trivial
  | cons i is => exact Nat.zero_le column

end Next

/-- Behind a value there is a gap. -/
theorem Ending.startsGap (e : Ending) (t : Next) : Yaml.startsGap (e.chars ++ t.chars) = true := by
  rw [Ending.chars, Blank.chars]
  cases hspaces : e.first.spaces with
  | succ k => rfl
  | zero =>
    cases hcomment : e.first.comment with
    | some text =>
      have hpos := e.apart (by rw [hcomment]; rfl)
      omega
    | none =>
      cases e.more with
      | cons b more => rfl
      | nil => cases t <;> rfl

/-- Behind a colon there is a gap, and perhaps a value. -/
theorem Scalar.startsGap (v : Scalar) (gap : Nat) (e : Ending) (t : Next) :
    Yaml.startsGap (v.behindColon gap ++ (e.chars ++ t.chars)) = true := by
  cases v with
  | nothing => exact e.startsGap t
  | word w => rfl
  | quoted q => rfl

end Block

namespace Lexer

/-! ## Between tokens -/

/-- What a lexer finds behind lines without content. -/
def Arrives : Next → Cursor → Bool → Prop
  | .ending, c, _ => c.rest = []
  | .line column rest, c, allowed => c.rest = rest ∧ c.column = column ∧ allowed = true

@[simp] theorem cursor_moveTo (l : Lexer) (c : Cursor) : (l.moveTo c).cursor = c := rfl

@[simp] theorem moveTo_moveTo (l : Lexer) (c c' : Cursor) :
    (l.moveTo c).moveTo c' = l.moveTo c' := rfl

/-- With one pending key there is no bracket open. -/
theorem inFlow_eq_false {l : Lexer} {key : Option PendingKey} (h : l.pending = [key]) :
    l.inFlow = false := by
  rw [inFlow, h]
  rfl

/-- No mark of the byte order stands in front of blanks, comments, line ends and content. -/
theorem startsWith_mark_eq_false {k : Nat} {s : List Char} (h : ∀ c ∈ s.head?, c ≠ '\ufeff') :
    startsWith ['\ufeff'] (List.replicate k ' ' ++ s) = false := by
  cases k with
  | succ k => rfl
  | zero =>
    cases s with
    | nil => rfl
    | cons c r =>
      have hne := h c rfl
      simp [startsWith, hne]

/-- Blanks are skipped at once. -/
theorem skipWhile_blanks {c : Cursor} {k : Nat} {s : List Char}
    (hrest : c.rest = List.replicate k ' ' ++ s) (hs : ∀ x ∈ s.head?, isSpace x = false)
    (tabs : Bool) :
    (c.skipWhile fun x => x = ' ' || (tabs && x = '\t')) = c.skip k := by
  have hall : (List.replicate k ' ').all (fun x => x = ' ' || (tabs && x = '\t')) = true :=
    List.all_eq_true.2 fun x hx => by
      rw [(List.mem_replicate.1 hx).2]
      rfl
  have hstop : ∀ x ∈ s.head?, (decide (x = ' ') || (tabs && decide (x = '\t'))) = false := by
    intro x hx
    have hspace := hs x hx
    simp only [isSpace, Bool.or_eq_false_iff] at hspace
    rw [hspace.1, hspace.2, Bool.and_false]
    rfl
  rw [Cursor.skipWhile, Cursor.skip, hrest, takeWhile_append_of_head? hall hstop,
    dropWhile_append_of_head? hall hstop, List.drop_left' List.length_replicate,
    List.length_replicate]

/-- Blanks in front of content. -/
theorem skipGap_blanks {l : Lexer} {n k : Nat} {rest : List Char}
    (hrest : l.cursor.rest = List.replicate k ' ' ++ rest) (hcontent : startsContent rest = true) :
    l.skipGap (n + 1) = l.skip k := by
  rcases Block.exists_of_startsContent hcontent with ⟨x, r, rfl, hgap, hcomment, hmark⟩
  have hskip := Cursor.rest_skip_blanks hrest
  have hno : startsWith ['#'] (x :: r) = false := by simp [startsWith, hcomment]
  have hmark : startsWith ['\ufeff'] l.cursor.rest = false := by
    rw [hrest]
    exact startsWith_mark_eq_false fun c hc => by
      cases hc
      exact hmark
  rw [skipGap]
  simp only [hmark, Bool.and_false, Bool.false_eq_true, if_false]
  rw [skipWhile_blanks hrest (fun c hc => by cases hc; exact isSpace_of_isGap hgap)]
  simp only [cursor_moveTo, hskip, hno, Bool.false_eq_true, if_false,
    Cursor.readBreak?_eq_none hskip (isBreak_of_isGap hgap)]
  rfl

/-- A comment is skipped up to the end of its line. -/
theorem rest_skipWhile_comment {c : Cursor} {text s : List Char}
    (hrest : c.rest = '#' :: text ++ s)
    (htext : text.all (fun x => isAllowed x && !isBreak x) = true)
    (hs : ∀ x ∈ s.head?, isBreak x = true) : (c.skipWhile fun x => !isBreak x).rest = s := by
  have hall : ('#' :: text).all (fun x => !isBreak x) = true :=
    List.all_eq_true.2 fun x hx => by
      rcases List.mem_cons.1 hx with rfl | hx
      · rfl
      · exact (Bool.and_eq_true _ _ ▸ List.all_eq_true.1 htext x hx).2
  rw [Cursor.skipWhile, hrest]
  exact dropWhile_append_of_head? hall fun x hx => by rw [hs x hx]; rfl

/-- A comment, if there is one, up to the end of its line. -/
theorem exists_skip_comment {l : Lexer} {b : Blank} {s : List Char}
    (hrest : l.cursor.rest = Block.commentChars b.comment ++ s) (hs : ∀ x ∈ s.head?, x = '\n') :
    ∃ c : Cursor, c.rest = s ∧
      (if startsWith ['#'] l.cursor.rest then
        l.moveTo (l.cursor.skipWhile fun x => !isBreak x)
      else l) = l.moveTo c := by
  cases hcomment : b.comment with
  | none =>
    rw [hcomment] at hrest
    have hno : startsWith ['#'] l.cursor.rest = false := by
      rw [hrest]
      cases s with
      | nil => rfl
      | cons x r =>
        cases hs x rfl
        rfl
    exact ⟨l.cursor, hrest, by rw [hno, if_neg Bool.false_ne_true]; rfl⟩
  | some text =>
    rw [hcomment] at hrest
    have hyes : startsWith ['#'] l.cursor.rest = true := by
      rw [hrest]
      rfl
    refine ⟨l.cursor.skipWhile fun x => !isBreak x, ?_, by rw [hyes, if_pos rfl]⟩
    exact rest_skipWhile_comment hrest (b.isAllowed_comment text hcomment) fun x hx => by
      rw [hs x hx]
      rfl

/-- A line without content, up to its end or up to the start of the next line. -/
theorem skipGap_blank {l : Lexer} {n : Nat} {b : Blank} {s : List Char} (hflow : l.inFlow = false)
    (hrest : l.cursor.rest = b.chars ++ s) (hs : ∀ x ∈ s.head?, x = '\n') :
    ∃ c : Cursor, c.rest = s ∧ (s = [] → l.skipGap (n + 1) = l.moveTo c) ∧
      ∀ r, s = '\n' :: r →
        l.skipGap (n + 1) = skipGap n ((l.moveTo ⟨r, c.position.down 1⟩).allowKey true) := by
  rw [Blank.chars, List.append_assoc] at hrest
  have hskip := Cursor.rest_skip_blanks hrest
  -- Behind the blanks there is a comment or the end of the line.
  have hhead : ∀ x ∈ (Block.commentChars b.comment ++ s).head?, x = '#' ∨ x = '\n' := by
    cases b.comment with
    | none => exact fun x hx => .inr (hs x hx)
    | some text =>
      intro x hx
      cases hx
      exact .inl rfl
  have hmark : startsWith ['\ufeff'] l.cursor.rest = false := by
    rw [hrest]
    exact startsWith_mark_eq_false fun x hx => by rcases hhead x hx with rfl | rfl <;> decide
  have hblanks := skipWhile_blanks hrest fun x hx => by rcases hhead x hx with rfl | rfl <;> rfl
  rcases exists_skip_comment (l := l.moveTo (l.cursor.skip b.spaces)) hskip hs with
    ⟨c, hc, hcomment⟩
  refine ⟨c, hc, fun hnil => ?_, fun r hr => ?_⟩
  · rw [skipGap]
    simp only [hmark, Bool.and_false, Bool.false_eq_true, if_false, hblanks]
    rw [hcomment]
    simp only [cursor_moveTo, Cursor.readBreak?_nil (hc.trans hnil), moveTo_moveTo]
  · have hflow' : (l.moveTo ⟨r, c.position.down 1⟩).inFlow = false := hflow
    rw [skipGap]
    simp only [hmark, Bool.and_false, Bool.false_eq_true, if_false, hblanks]
    rw [hcomment]
    simp only [cursor_moveTo, Cursor.readBreak?_feed (hc.trans hr), moveTo_moveTo, hflow',
      Bool.false_eq_true, if_false]

/-- Lines without content are skipped, and allow a key. -/
theorem skipGap_lands {t : Next} {allowed : Bool} {start : Nat} {s : List Char}
    (h : Lands t allowed start s) : ∀ {n : Nat} {l : Lexer}, l.inFlow = false →
      l.cursor.rest = s → l.cursor.column = start → l.keyAllowed = allowed → s.length < n →
        ∃ c a, l.skipGap n = { l with cursor := c, keyAllowed := a } ∧ Arrives t c a := by
  induction h with
  | @here column start k rest hcontent hcolumn =>
    intro n l _ hrest hstart hallowed hn
    obtain ⟨n, rfl⟩ : ∃ m, n = m + 1 := ⟨n - 1, by omega⟩
    refine ⟨l.cursor.skip k, l.keyAllowed, ?_, Cursor.rest_skip_blanks hrest, ?_, hallowed⟩
    · rw [skipGap_blanks hrest hcontent]
      rfl
    · rw [Cursor.column_skip, hstart, hcolumn]
  | @finish allowed start b =>
    intro n l hflow hrest _ _ hn
    obtain ⟨n, rfl⟩ : ∃ m, n = m + 1 := ⟨n - 1, by omega⟩
    rw [← List.append_nil b.chars] at hrest
    rcases skipGap_blank (n := n) hflow hrest (by simp) with ⟨c, hc, hskip, -⟩
    exact ⟨c, l.keyAllowed, hskip rfl, hc⟩
  | @next t allowed start s b h ih =>
    intro n l hflow hrest _ _ hn
    obtain ⟨n, rfl⟩ : ∃ m, n = m + 1 := ⟨n - 1, by omega⟩
    rcases skipGap_blank (n := n) hflow hrest (by simp) with ⟨c, hc, -, hskip⟩
    have hlength : s.length < n := by
      rw [List.length_append, List.length_cons] at hn
      omega
    rcases ih (l := (l.moveTo ⟨s, c.position.down 1⟩).allowKey true) hflow rfl rfl rfl hlength with
      ⟨c', a, hmore, harrives⟩
    exact ⟨c', a, (hskip s rfl).trans hmore, harrives⟩

/-! ## Blocks -/

/-- No block is closed that is not to the right of the column. -/
theorem closeBlocksIn_of_le {column i : Int} (h : i ≤ column) (o : List Int) (F : List Token) :
    closeBlocksIn column i o F = (i, o, F) := by
  cases o with
  | nil => rfl
  | cons i' o => rw [closeBlocksIn, if_neg (Int.not_lt.2 h)]

/-- Blocks that are closed in two steps are closed in one. -/
theorem closeBlocksIn_closeBlocksIn {near far : Int} (h : near ≤ far) {i' : Int} {o' : List Int}
    {F' : List Token} : ∀ {o : List Int} {i : Int} {F : List Token},
      closeBlocksIn far i o F = (i', o', F') →
        closeBlocksIn near i' o' F' = closeBlocksIn near i o F
  | [], i, F, hclose => by
    cases hclose
    rfl
  | i₁ :: o, i, F, hclose => by
    rw [closeBlocksIn] at hclose
    split at hclose
    · rename_i hfar
      rw [closeBlocksIn, if_pos (Int.lt_of_le_of_lt h hfar)]
      exact closeBlocksIn_closeBlocksIn h hclose
    · cases hclose
      rfl

/-- To close blocks changes the indentation and the tokens that were found. -/
theorem closeBlocks_eq {l : Lexer} {column i : Int} {o : List Int} {F : List Token}
    (hflow : l.inFlow = false) (h : closeBlocksIn column l.indent l.outer l.found = (i, o, F)) :
    l.closeBlocks column = { l with indent := i, outer := o, found := F } := by
  rw [closeBlocks, hflow, h]
  rfl

/-! ## To the next token -/

/-- The state in front of what comes next: no key has started, and some blocks are open. -/
structure Stands (t : Next) (i : Int) (o : List Int) (F : List Token) (l : Lexer) : Prop where
  pending : l.pending = [none]
  lands : Lands t l.keyAllowed l.cursor.column l.cursor.rest
  indent : l.indent = i
  outer : l.outer = o
  found : l.found = F

/-- Nothing is in front of content on the same line but blanks. -/
theorem toToken_content {c : Cursor} {F : List Token} {i : Int} {o : List Int} {allowed : Bool}
    {key : Option PendingKey} {k : Nat} {rest : List Char}
    (hrest : c.rest = List.replicate k ' ' ++ rest) (hcontent : startsContent rest = true)
    (hi : i ≤ ((c.skip k).column : Int))
    (hfresh : ∀ saved ∈ key, isStale saved (c.skip k).position = false) :
    toToken ⟨c, F, i, o, allowed, [key]⟩ = .ok ⟨c.skip k, F, i, o, allowed, [key]⟩ := by
  have hpending : dropStaleKeys (c.skip k).position [key] = .ok [key] := by
    cases key with
    | none => rfl
    | some saved =>
      simp [dropStaleKeys, hfresh saved rfl, bind, Except.bind, pure, Except.pure]
  rw [toToken, skipGap_blanks hrest hcontent]
  have hcursor : (skip ⟨c, F, i, o, allowed, [key]⟩ k).cursor = c.skip k := rfl
  rw [hcursor]
  simp only [skip, moveTo, hpending, bind, Except.bind, pure, Except.pure]
  rw [closeBlocks_eq rfl (closeBlocksIn_of_le hi _ _)]

/-- A line starts after blocks to the right of it are closed. -/
theorem toToken_line {l : Lexer} {column : Nat} {rest : List Char} {i i' : Int} {o o' : List Int}
    {F F' : List Token} (h : Stands (.line column rest) i o F l)
    (hclose : closeBlocksIn column i o F = (i', o', F')) :
    ∃ c : Cursor, c.rest = rest ∧ c.column = column ∧
      l.toToken = .ok ⟨c, F', i', o', true, [none]⟩ := by
  rcases skipGap_lands h.lands (inFlow_eq_false h.pending) rfl rfl rfl (Nat.lt_succ_self _) with
    ⟨c, a, hskip, hrest, hcolumn, rfl⟩
  refine ⟨c, hrest, hcolumn, ?_⟩
  rw [toToken, hskip]
  rw [← hcolumn] at hclose
  simp only [h.pending, h.indent, h.outer, h.found, dropStaleKeys, bind, Except.bind, pure,
    Except.pure, Except.map]
  rw [closeBlocks_eq rfl hclose]

/-- The text ends after some blocks are closed. -/
theorem toToken_ending {l : Lexer} {i : Int} {o : List Int} {F : List Token}
    (h : Stands .ending i o F l) :
    ∃ (c : Cursor) (a : Bool), c.rest = [] ∧
      l.toToken = .ok (closeBlocks ⟨c, F, i, o, a, [none]⟩ c.column) := by
  rcases skipGap_lands h.lands (inFlow_eq_false h.pending) rfl rfl rfl (Nat.lt_succ_self _) with
    ⟨c, a, hskip, hrest⟩
  refine ⟨c, a, hrest, ?_⟩
  rw [toToken, hskip]
  simp only [h.pending, h.indent, h.outer, h.found, dropStaleKeys, bind, Except.bind, pure,
    Except.pure, Except.map]

/-! ## Tokens of a field -/

/-- The first character of a word starts a plain scalar. -/
theorem token_of_isWord {l : Lexer} {x : Char} {r : List Char} (hword : isWord x = true)
    (hne : x ≠ '-') : l.token x r = l.plainScalar := by
  have hnone : (['%', '.', '[', '\x7b', ']', '\x7d', ',', '?', ':', '*', '&', '!', '|', '>',
      '\x27', '"', '#', '@', '\x60'].all fun d => !isWord d) = true := rfl
  have hother := fun d hd =>
    ne_of_isWord hword (Bool.not_eq_true' _ ▸ List.all_eq_true.1 hnone d hd)
  simp only [List.mem_cons, List.not_mem_nil, or_false, forall_eq_or_imp, forall_eq] at hother
  simp [token, startsMark_eq_false, hne, hother, startsPlain, isGap_of_isWord hword, indicators]

/-- A quote starts a quoted scalar. -/
theorem token_quote {l : Lexer} {r : List Char} :
    l.token '"' r = l.quotedScalar '"' .double := by
  simp [token, startsMark_eq_false]

/-- A colon before a gap is one before a value. -/
theorem token_colon {l : Lexer} {r : List Char} (hr : startsGap r = true) :
    l.token ':' r = l.value := by
  simp [token, startsMark_eq_false, hr]

/-- A key may start where one is allowed. -/
theorem saveKey_of_keyAllowed (c : Cursor) (F : List Token) (i : Int) (o : List Int) :
    saveKey ⟨c, F, i, o, true, [none]⟩ =
      .ok ⟨c, F, i, o, true, [some ⟨F.length, c.position, decide (i = (c.column : Int))⟩]⟩ := by
  rfl

/-- A name in front of its colon, behind which a key has started at the name. -/
theorem token_name {c : Cursor} {F : List Token} {i : Int} {o : List Int} {k : Name}
    {r : List Char} (hrest : c.rest = k.chars ++ ':' :: r) (hr : startsGap r = true) :
    ∃ x s, c.rest = x :: s ∧ token ⟨c, F, i, o, true, [none]⟩ x s =
      .ok ⟨c.skip k.chars.length, k.token :: F, i, o, false,
        [some ⟨F.length, c.position, decide (i = (c.column : Int))⟩]⟩ := by
  cases k with
  | word w hshort =>
    refine ⟨w.first, w.rest ++ ':' :: r, hrest, ?_⟩
    rw [token_of_isWord w.isWord_first w.first_ne, plainScalar, saveKey_of_keyAllowed]
    simp only [bind, Except.bind, allowKey]
    rw [show inFlow _ = false from rfl, Block.readPlain_key hrest hr]
    rfl
  | quoted q hshort =>
    refine ⟨'"', Block.escape q.text ++ ['"'] ++ ':' :: r, hrest, ?_⟩
    rw [token_quote, quotedScalar, saveKey_of_keyAllowed]
    simp only [bind, Except.bind, allowKey]
    rw [Block.readQuoted_eq hrest]
    rfl

/-- The blocks around a field, of which the innermost is opened by it unless it is there. -/
def outerAt (column : Nat) (i : Int) (o : List Int) : List Int := if i < column then i :: o else o

/-- The tokens before a field, where the start of its block is one. -/
def foundAt (column : Nat) (i : Int) (F : List Token) : List Token :=
  if i < column then .blockMappingStart :: F else F

/-- A token is put in between some tokens and those before them. -/
theorem emitAt_append {l : Lexer} (new : List Token) {F : List Token} (h : l.found = new ++ F)
    (t : Token) : l.emitAt F.length t = { l with found := new ++ t :: F } := by
  rw [emitAt, h, List.length_append, Nat.add_sub_cancel, List.take_left, List.drop_left]

/-- A field opens its block, unless it stands in one. -/
theorem openBlock_eq {c : Cursor} (new : List Token) {F : List Token} {i : Int} {o : List Int}
    {a : Bool} {key : Option PendingKey} {column : Nat} (hi : i ≤ column) :
    openBlock ⟨c, new ++ F, i, o, a, [key]⟩ column (some F.length) .blockMappingStart =
      ⟨c, new ++ foundAt column i F, column, outerAt column i o, a, [key]⟩ := by
  rw [openBlock, outerAt, foundAt]
  by_cases hlt : i < column
  · rw [if_neg (by simpa [inFlow] using hlt), if_pos hlt, if_pos hlt]
    exact emitAt_append new rfl _
  · obtain rfl : i = column := Int.le_antisymm hi (Int.not_lt.1 hlt)
    rw [if_pos (by simp), if_neg hlt, if_neg hlt]

/-- A colon makes a key of the token before it, and opens a block at the key. -/
theorem value_of_key {c : Cursor} {F : List Token} {i : Int} {o : List Int} {p : Position}
    {required : Bool} {t : Token} (hi : i ≤ p.column) :
    value ⟨c, t :: F, i, o, false, [some ⟨F.length, p, required⟩]⟩ =
      .ok ⟨c.skip 1, .value :: t :: .key :: foundAt p.column i F, p.column, outerAt p.column i o,
        false, [none]⟩ := by
  rw [value]
  simp only [pure, Except.pure]
  rw [emitAt_append [t] rfl]
  exact congrArg (fun l => Except.ok (((l.setPending none).allowKey false).emit .value |>.skip 1))
    (openBlock_eq [t, .key] hi)

/-! ## Runs -/

/-- The tokens that a run gives, if it may take a step for each character and one more. -/
def Runs (l : Lexer) (result : List Token) : Prop :=
  ∀ n, l.cursor.rest.length < n → l.run n = .ok result

/-- A run goes on behind a token that takes a character at least. -/
theorem runs_of_token {l l₁ l₂ : Lexer} {x : Char} {s : List Char} {result : List Token}
    (hto : l.toToken = .ok l₁) (hrest : l₁.cursor.rest = x :: s) (htoken : l₁.token x s = .ok l₂)
    (hless : l₂.cursor.rest.length < l.cursor.rest.length) (h : Runs l₂ result) :
    Runs l result := by
  intro n hn
  obtain ⟨n, rfl⟩ : ∃ m, n = m + 1 := ⟨n - 1, by omega⟩
  rw [run, hto]
  simp only [bind, Except.bind, hrest, htoken]
  exact h n (by omega)

/-- What is in front of content takes no fewer characters than the content. -/
theorem length_le_of_lands {t : Next} {allowed : Bool} {start : Nat} {s : List Char}
    (h : Lands t allowed start s) {column : Nat} {rest : List Char} (ht : t = .line column rest) :
    rest.length ≤ s.length := by
  induction h with
  | here hcontent hcolumn =>
    cases ht
    rw [List.length_append]
    exact Nat.le_add_left _ _
  | finish b => cases ht
  | next b h ih =>
    have hle := ih ht
    rw [List.length_append, List.length_cons]
    omega

/-- A colon behind a key. -/
theorem runs_colon {c : Cursor} {k : Name} {r : List Char} {i : Int} {o : List Int}
    {F result : List Token} {p : Position} {required : Bool} (hrest : c.rest = ':' :: r)
    (hr : startsGap r = true) (hi : i ≤ p.column) (hp : p.column ≤ c.column)
    (hfresh : isStale ⟨F.length, p, required⟩ c.position = false)
    (hnext : Runs ⟨c.skip 1, .value :: k.token :: .key :: foundAt p.column i F, p.column,
      outerAt p.column i o, false, [none]⟩ result) :
    Runs ⟨c, k.token :: F, i, o, false, [some ⟨F.length, p, required⟩]⟩ result := by
  have hto : toToken ⟨c, k.token :: F, i, o, false, [some ⟨F.length, p, required⟩]⟩ = .ok _ :=
    toToken_content (k := 0) hrest rfl (Int.le_trans hi (Int.ofNat_le.2 hp)) fun saved hsaved => by
      cases hsaved
      exact hfresh
  refine runs_of_token hto hrest ((token_colon hr).trans (value_of_key hi)) ?_ hnext
  rw [Cursor.skip_zero, Cursor.rest_skip, hrest]
  exact Nat.lt_succ_self _

/-- A name and its colon. -/
theorem runs_name {l : Lexer} {column : Nat} {k : Name} {r : List Char} {i i' : Int}
    {o o' : List Int} {F F' result : List Token}
    (h : Stands (.line column (k.chars ++ ':' :: r)) i o F l) (hr : startsGap r = true)
    (hclose : closeBlocksIn column i o F = (i', o', F')) (hi : i' ≤ column)
    (hnext : ∀ c : Cursor, c.rest = r → column < c.column →
      Runs ⟨c, .value :: k.token :: .key :: foundAt column i' F', column, outerAt column i' o',
        false, [none]⟩ result) :
    Runs l result := by
  rcases toToken_line h hclose with ⟨c, hrest, rfl, hto⟩
  rcases token_name (F := F') (i := i') (o := o') hrest hr with ⟨x, s, hx, htoken⟩
  have hskip := Cursor.rest_skip_append hrest
  have hless := length_le_of_lands h.lands rfl
  rw [List.length_append, List.length_cons] at hless
  refine runs_of_token hto hx htoken ?_ ?_
  · have hpos := k.length_pos
    rw [hskip, List.length_cons]
    omega
  · refine runs_colon hskip hr hi (Nat.le_add_right _ _) ?_ (hnext _ ?_ ?_)
    · -- The colon comes soon enough on the same line.
      simpa [isStale, Cursor.skip, Position.right] using k.length_le
    · rw [Cursor.rest_skip, hskip]
      rfl
    · simp only [Cursor.column_skip]
      omega

/-- A value in front of the end of its line. -/
theorem token_value {c : Cursor} {F : List Token} {column : Nat} {o : List Int}
    {v : Block.Scalar} {e : Block.Ending} {t : Next} (hv : v ≠ .nothing)
    (hrest : c.rest = v.chars ++ (e.chars ++ t.chars)) (ht : t.HasContent)
    (hwithin : t.Within column) :
    ∃ x s l, c.rest = x :: s ∧ token ⟨c, F, column, o, false, [none]⟩ x s = .ok l ∧
      Stands t column o (v.tokens.reverse ++ F) l ∧ l.cursor.rest.length ≤ c.rest.length := by
  have hlands := Block.lands_ending ht e false
  cases v with
  | nothing => exact absurd rfl hv
  | word w =>
    rcases Block.readPlain_value hrest (e.startsGap t) hwithin (hlands _) with
      ⟨broken, c', hread, hlands', hle⟩
    refine ⟨w.first, _, ⟨c', .scalar w.chars .plain :: F, column, o, broken, [none]⟩, hrest, ?_,
      ⟨rfl, hlands', rfl, rfl, rfl⟩, ?_⟩
    · have hindent : ((column : Int) + 1).toNat = column + 1 := rfl
      rw [token_of_isWord w.isWord_first w.first_ne, plainScalar]
      simp only [saveKey, bind, Except.bind, Bool.false_eq_true, if_false, allowKey, hindent]
      rw [show inFlow _ = false from rfl, hread]
      cases broken <;> rfl
    · rw [hrest, List.length_append]
      exact Nat.le_trans hle (Nat.le_add_left _ _)
  | quoted q =>
    have hend := Cursor.rest_skip_append hrest
    refine ⟨'"', _, ⟨c.skip q.chars.length, .scalar q.text .double :: F, column, o, false, [none]⟩,
      hrest, ?_, ⟨rfl, ?_, rfl, rfl, rfl⟩, (List.drop_sublist _ _).length_le⟩
    · rw [token_quote, quotedScalar]
      simp only [saveKey, bind, Except.bind, Bool.false_eq_true, if_false, allowKey]
      rw [Block.readQuoted_eq hrest]
      rfl
    · exact hend ▸ hlands _

/-- Behind a colon there are blanks in front of a value. -/
theorem behindColon_eq {v : Block.Scalar} (hv : v ≠ .nothing) (gap : Nat) :
    v.behindColon gap = List.replicate (gap + 1) ' ' ++ v.chars := by
  cases v with
  | nothing => exact absurd rfl hv
  | word w => rfl
  | quoted q => rfl

/-- A value and the end of its line. -/
theorem runs_value {c : Cursor} {F result : List Token} {column gap : Nat} {o : List Int}
    {v : Block.Scalar} {e : Block.Ending} {t : Next}
    (hrest : c.rest = v.behindColon gap ++ (e.chars ++ t.chars)) (hcolumn : column < c.column)
    (ht : t.HasContent) (hwithin : v = .nothing ∨ t.Within column)
    (hnext : ∀ l, Stands t column o (v.tokens.reverse ++ F) l → Runs l result) :
    Runs ⟨c, F, column, o, false, [none]⟩ result := by
  by_cases hv : v = .nothing
  · subst hv
    refine hnext _ ⟨rfl, ?_, rfl, rfl, rfl⟩
    rw [hrest]
    exact Block.lands_ending ht e false c.column
  · rw [behindColon_eq hv, List.append_assoc] at hrest
    have hat : (column : Int) ≤ ((c.skip (gap + 1)).column : Int) := by
      rw [Cursor.column_skip]
      omega
    have hto : toToken ⟨c, F, column, o, false, [none]⟩ = .ok _ :=
      toToken_content hrest (Block.Scalar.startsContent hv _) hat fun saved hsaved => by
        cases hsaved
    rcases token_value (F := F) (o := o) hv (Cursor.rest_skip_blanks hrest) ht
      (hwithin.resolve_left hv) with ⟨x, s, l, hx, htoken, hstands, hle⟩
    refine runs_of_token hto hx htoken (Nat.lt_of_le_of_lt hle ?_) (hnext l hstands)
    rw [Cursor.rest_skip_blanks hrest, hrest]
    simp only [List.length_append, List.length_replicate]
    omega

/-- A field, behind which the lexer stands in front of what comes next. -/
theorem runs_line {l : Lexer} {line : Block.Line} {t : Next} {column : Nat} {i i' : Int}
    {o o' : List Int} {F F' result : List Token}
    (h : Stands (.line column (line.chars ++ t.chars)) i o F l)
    (hclose : closeBlocksIn column i o F = (i', o', F')) (hi : i' ≤ column) (ht : t.HasContent)
    (hwithin : line.value = .nothing ∨ t.Within column)
    (hnext : ∀ l, Stands t column (outerAt column i' o')
      (line.tokens.reverse ++ foundAt column i' F') l → Runs l result) :
    Runs l result := by
  have hchars : line.chars ++ t.chars = line.name.chars ++ ':' ::
      (line.value.behindColon line.gap ++ (line.ending.chars ++ t.chars)) := by
    simp only [Block.Line.chars, List.append_assoc, List.cons_append]
  rw [hchars] at h
  refine runs_name h (line.value.startsGap _ _ _) hclose hi fun c hrest hcolumn => ?_
  refine runs_value hrest hcolumn ht hwithin fun l hstands => hnext l ?_
  have htokens : line.tokens.reverse ++ foundAt column i' F' = line.value.tokens.reverse ++
      (.value :: line.name.token :: .key :: foundAt column i' F') := by
    simp only [Block.Line.tokens, List.reverse_cons, List.append_assoc, List.cons_append,
      List.nil_append]
  rwa [htokens]

/-! ## Fields and records -/

/-- Fields in the column of their block. -/
theorem runs_lines {t : Next} {column : Nat} {o : List Int} {result : List Token}
    (ht : t.HasContent) (hwithin : t.Within column) : ∀ {ls : List Line} {l : Lexer}
      {F : List Token}, Stands (.lines column ls t) column o F l →
        (∀ l, Stands t column o ((ls.flatMap Line.tokens).reverse ++ F) l → Runs l result) →
        Runs l result
  | [], l, _, h, hnext => hnext l h
  | line :: ls, l, F, h, hnext => by
    refine runs_line h (closeBlocksIn_of_le (Int.le_refl column) o F) (Int.le_refl column)
      (Next.hasContent_lines ht column ls) (.inr (Next.within_lines hwithin ls)) fun l₁ h₁ => ?_
    rw [outerAt, foundAt, if_neg (Int.lt_irrefl _), if_neg (Int.lt_irrefl _)] at h₁
    refine runs_lines ht hwithin h₁ fun l₂ h₂ => hnext l₂ ?_
    rwa [List.flatMap_cons, List.reverse_append, List.append_assoc]

/-- A field or a record, behind which all blocks to the right of the first column may be
closed. -/
theorem runs_item {l : Lexer} {item : Item} {is : List Item} {i i' : Int} {o o' : List Int}
    {F F' result : List Token} (h : Stands (.items (item :: is)) i o F l)
    (hclose : closeBlocksIn 0 i o F = (i', o', F')) (hi : i' ≤ 0)
    (hnext : ∀ l i₁ o₁ F₁, Stands (.items is) i₁ o₁ F₁ l →
      closeBlocksIn 0 i₁ o₁ F₁ =
        (0, outerAt 0 i' o', item.tokens.reverse ++ foundAt 0 i' F') → Runs l result) :
    Runs l result := by
  cases item with
  | line line =>
    exact runs_line h hclose hi (Next.hasContent_items is) (.inr (Next.within_items is 0))
      fun l₁ h₁ => hnext l₁ _ _ _ h₁ (closeBlocksIn_of_le (Int.le_refl 0) _ _)
  | record s =>
    have hcontent := Next.hasContent_items is
    have hwithin := Next.within_items is (s.indent + 1)
    have hchars : s.chars ++ (Next.items is).chars =
        s.head.chars ++ (Next.lines (s.indent + 1) s.lines (.items is)).chars := by
      rw [Next.chars_lines, Block.Section.chars, List.append_assoc]
    have h₀ : Stands (.line 0 (s.head.chars ++ (Next.lines (s.indent + 1) s.lines
        (.items is)).chars)) i o F l := by
      rw [← hchars]
      exact h
    refine runs_line h₀ hclose hi (Next.hasContent_lines hcontent _ _) (.inl rfl) fun l₁ h₁ => ?_
    refine runs_line h₁ (closeBlocksIn_of_le (by omega) _ _) (by omega)
      (Next.hasContent_lines hcontent _ _) (.inr (Next.within_lines hwithin _)) fun l₂ h₂ => ?_
    rw [outerAt, foundAt, if_pos (by omega), if_pos (by omega)] at h₂
    refine runs_lines hcontent hwithin h₂ fun l₃ h₃ => hnext l₃ _ _ _ h₃ ?_
    rw [closeBlocksIn, if_pos (by omega), closeBlocksIn_of_le (by omega)]
    simp [Item.tokens, Block.Section.tokens, Block.Section.lines]

/-- Items in the first column, and the end of the text. -/
theorem runs_items : ∀ {is : List Item} {l : Lexer} {i : Int} {o : List Int} {F F' : List Token},
    Stands (.items is) i o F l → closeBlocksIn 0 i o F = (0, [-1], F') →
      Runs l (F'.reverse ++ (is.flatMap Item.tokens ++ [.blockEnd]))
  | [], l, i, o, F, F', h, hclose => by
    rcases toToken_ending h with ⟨c, a, hrest, hto⟩
    intro n hn
    obtain ⟨n, rfl⟩ : ∃ m, n = m + 1 := ⟨n - 1, by omega⟩
    rcases hsome : closeBlocksIn c.column i o F with ⟨i₁, o₁, F₁⟩
    have hall : closeBlocksIn (-1) i₁ o₁ F₁ = (-1, [], .blockEnd :: F') := by
      rw [closeBlocksIn_closeBlocksIn (by omega) hsome,
        ← closeBlocksIn_closeBlocksIn (by omega) hclose]
      rfl
    rw [closeBlocks_eq rfl hsome] at hto
    rw [run, hto]
    simp only [bind, Except.bind, hrest, finish]
    rw [closeBlocks_eq rfl hall]
    simp [dropKey, pure, Except.pure]
  | item :: is, l, i, o, F, F', h, hclose => by
    refine runs_item h hclose (Int.le_refl 0) fun l₁ i₁ o₁ F₁ h₁ hclose₁ => ?_
    have hrun := runs_items h₁ hclose₁
    simpa [foundAt, List.reverse_append] using hrun

end Lexer

/-! ## The whole text -/

namespace Block

/-- A block text leads to its first item. -/
theorem lands_chars (b : Block) : Lands (.items b.items) true 0 b.chars := by
  rw [chars, ← Next.chars_items]
  induction b.opening with
  | nil => exact .here (k := 0) (b.first.startsContent _) rfl
  | cons blank opening ih =>
    rw [List.flatMap_cons, List.append_assoc, List.append_assoc]
    exact .next blank ih

/-- No mark of the byte order stands before a block text. -/
theorem head?_chars_ne (b : Block) : ∀ c ∈ b.chars.head?, c ≠ '\ufeff' := by
  intro c hc
  rw [chars] at hc
  cases hopening : b.opening with
  | nil =>
    rw [hopening, List.flatMap_nil, List.nil_append] at hc
    rcases exists_of_startsContent (b.first.startsContent (itemChars b.more)) with
      ⟨x, r, hx, -, -, hne⟩
    rw [hx] at hc
    cases hc
    exact hne
  | cons blank opening =>
    rw [hopening, List.flatMap_cons, Blank.chars] at hc
    have hc : c = ' ' ∨ c = '#' ∨ c = '\n' := by
      cases hspaces : blank.spaces with
      | succ k =>
        rw [hspaces] at hc
        cases hc
        exact .inl rfl
      | zero =>
        cases hcomment : blank.comment with
        | none =>
          rw [hspaces, hcomment] at hc
          cases hc
          exact .inr (.inr rfl)
        | some text =>
          rw [hspaces, hcomment] at hc
          cases hc
          exact .inr (.inl rfl)
    rcases hc with rfl | rfl | rfl <;> decide

/-- The tokens of a block text are those that it writes. -/
theorem tokens_chars (b : Block) : Yaml.tokens b.chars = .ok b.tokens := by
  have hstands : Lexer.Stands (.items b.items) (-1) [] [] (Lexer.ofChars b.chars) :=
    ⟨rfl, b.lands_chars, rfl, rfl, rfl⟩
  have hruns : (Lexer.ofChars b.chars).Runs b.tokens := by
    refine Lexer.runs_item hstands rfl (by decide) fun l i o F h hclose => ?_
    have hrun := Lexer.runs_items h hclose
    simpa [Lexer.foundAt, tokens, items, List.reverse_append] using hrun
  rw [Yaml.tokens]
  · simp only [b.all_isAllowed_chars, if_true]
    exact hruns _ (Nat.lt_succ_self _)
  · intro r hmark
    exact b.head?_chars_ne '\ufeff' (by rw [hmark]; rfl) rfl

end Block

end MetricRelay.Yaml
