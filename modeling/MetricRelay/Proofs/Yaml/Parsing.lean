import MetricRelay.Proofs.Yaml.Lexing
import MetricRelay.Yaml.Record

/-!
# Records of a block text

The tokens of a block text are read as the record that it writes: a mapping from its names to
its values, where the value of a record inside is a mapping again.

Main results:

- `Block.parse_text`: the document of a block text.
- `Block.entries_root`: the names of the record, in their order, with what stands behind them.
-/

namespace MetricRelay.Yaml

open MetricRelay.Yaml.Block (Item Line Name Scalar)

namespace Reader

variable {tags : TagTable} {anchors : List Anchor} {n : Nat} {place : Place} {r : List Token}

/-! ## Nodes without properties -/

theorem node_scalar (text : List Char) (style : Style) :
    node (n + 2) place ⟨.scalar text style :: r, tags, anchors⟩ =
      .ok (.scalar none text style, ⟨r, tags, anchors⟩) := by
  simp [node, properties, content, define, settle, moveTo, bind, Except.bind, pure, Except.pure]

/-- A block of entries is one too. -/
theorem node_blockMapping {entries : List (Node × Node)} {p : Reader} (hplace : place ≠ .flow)
    (h : blockEntries n ⟨r, tags, anchors⟩ = .ok (entries, p)) :
    node (n + 2) place ⟨.blockMappingStart :: r, tags, anchors⟩ = .ok (.mapping entries, p) := by
  simp [node, properties, content, define, settle, moveTo, bind, Except.bind, pure, Except.pure,
    hplace, h]

/-! ## Entries of a block mapping -/

/-- Whether an entry ends in front of some tokens. -/
def AtEntry (r : List Token) : Prop := r.head?.any endsEntry = true

/-- After the mark of a value comes the scalar, or nothing. -/
theorem optionalValue_scalar (v : Scalar) (hr : AtEntry r) :
    optionalValue (n + 4) .entry endsEntry ⟨.value :: (v.tokens ++ r), tags, anchors⟩ =
      .ok (v.node, ⟨r, tags, anchors⟩) := by
  cases v with
  | nothing =>
    have hat : isAt ⟨r, tags, anchors⟩ endsEntry = true := hr
    simp [optionalValue, optionalNode, moveTo, Scalar.tokens, Scalar.node, hat]
  | word w =>
    simp [optionalValue, optionalNode, moveTo, Scalar.tokens, Scalar.node, isAt, endsEntry,
      node_scalar]
  | quoted q =>
    simp [optionalValue, optionalNode, moveTo, Scalar.tokens, Scalar.node, isAt, endsEntry,
      node_scalar]

/-- An entry and the ones after it. -/
theorem blockEntries_cons {k : Name} {s : List Token} {value : Node}
    {entries : List (Node × Node)} {p : Reader}
    (hvalue : optionalValue (n + 4) .entry endsEntry ⟨s, tags, anchors⟩ =
      .ok (value, ⟨r, tags, anchors⟩))
    (hmore : blockEntries (n + 4) ⟨r, tags, anchors⟩ = .ok (entries, p)) :
    blockEntries (n + 5) ⟨.key :: k.token :: s, tags, anchors⟩ =
      .ok ((k.node, value) :: entries, p) := by
  have hkey : optionalNode (n + 4) .entry endsEntry ⟨k.token :: s, tags, anchors⟩ =
      .ok (k.node, ⟨s, tags, anchors⟩) := by
    simp [optionalNode, isAt, Name.token, Name.node, endsEntry, node_scalar]
  rw [blockEntries]
  simp only [moveTo, hkey, hvalue, hmore, bind, Except.bind, pure, Except.pure]

theorem atEntry_lines (ls : List Line) :
    AtEntry (ls.flatMap Line.tokens ++ .blockEnd :: r) := by
  cases ls <;> rfl

/-- The fields of a record, and its end. -/
theorem blockEntries_lines : ∀ (ls : List Line) {n : Nat},
    (ls.flatMap Line.tokens).length + 5 ≤ n →
      blockEntries n ⟨ls.flatMap Line.tokens ++ .blockEnd :: r, tags, anchors⟩ =
        .ok (ls.map fun l => (l.name.node, l.value.node), ⟨r, tags, anchors⟩)
  | [], n + 1, _ => rfl
  | l :: ls, n + 1, hn => by
    rw [List.flatMap_cons, List.length_append, Line.tokens, List.length_cons] at hn
    obtain ⟨n, rfl⟩ : ∃ m, n = m + 4 := ⟨n - 4, by omega⟩
    rw [List.flatMap_cons, List.append_assoc]
    exact blockEntries_cons (optionalValue_scalar l.value (atEntry_lines ls))
      (blockEntries_lines ls (by omega))

/-- What stands behind the name of an item, where the item needs some steps. -/
theorem exists_value (item : Item) : ∃ s, item.tokens = .key :: item.name.token :: s ∧
    ∀ {n : Nat} {r : List Token}, item.tokens.length ≤ n → AtEntry r →
      optionalValue (n + 4) .entry endsEntry ⟨s ++ r, tags, anchors⟩ =
        .ok (item.node, ⟨r, tags, anchors⟩) := by
  cases item with
  | line l => exact ⟨_, rfl, fun _ hr => optionalValue_scalar l.value hr⟩
  | record s =>
    refine ⟨.value :: .blockMappingStart :: (s.lines.flatMap Line.tokens ++ [.blockEnd]), rfl,
      fun {n r} hn _ => ?_⟩
    rw [Item.tokens, Block.Section.tokens, List.length_append, List.length_cons,
      List.length_append] at hn
    have hlength : s.head.tokens.length = 3 := rfl
    have hlines : blockEntries n ⟨s.lines.flatMap Line.tokens ++ .blockEnd :: r, tags, anchors⟩ =
        .ok _ := blockEntries_lines s.lines (by simp only [List.length_singleton] at hn; omega)
    have hnode : node (n + 2) .entry ⟨.blockMappingStart :: (s.lines.flatMap Line.tokens ++
        .blockEnd :: r), tags, anchors⟩ = .ok (s.node, ⟨r, tags, anchors⟩) :=
      node_blockMapping (by decide) hlines
    have hchars : s.lines.flatMap Line.tokens ++ [.blockEnd] ++ r =
        s.lines.flatMap Line.tokens ++ .blockEnd :: r := by
      rw [List.append_assoc]
      rfl
    rw [List.cons_append, List.cons_append, hchars]
    simp only [optionalValue, optionalNode, moveTo, isAt]
    exact hnode

/-- The items of a document start with an entry, or the document ends. -/
theorem atEntry_items (is : List Item) :
    AtEntry (is.flatMap Item.tokens ++ .blockEnd :: r) := by
  cases is with
  | nil => rfl
  | cons i is => cases i <;> rfl

/-- The items of a text, and the end of the outermost record. -/
theorem blockEntries_items : ∀ (is : List Item) {n : Nat},
    (is.flatMap Item.tokens).length + 5 ≤ n →
      blockEntries n ⟨is.flatMap Item.tokens ++ .blockEnd :: r, tags, anchors⟩ =
        .ok (is.map fun i => (i.name.node, i.node), ⟨r, tags, anchors⟩)
  | [], n + 1, _ => rfl
  | i :: is, n + 1, hn => by
    rw [List.flatMap_cons, List.length_append] at hn
    rcases exists_value i with ⟨s, htokens, hvalue⟩
    obtain ⟨n, rfl⟩ : ∃ m, n = m + 4 := ⟨n - 4, by omega⟩
    have hpos : 0 < i.tokens.length := by
      rw [htokens]
      exact Nat.succ_pos _
    rw [List.flatMap_cons, List.append_assoc, htokens]
    exact blockEntries_cons (hvalue (by omega) (atEntry_items is))
      (blockEntries_items is (by omega))

end Reader

namespace Block

/-- A block text is a document, whose outermost node is the record that the text writes. -/
theorem parse_text (b : Block) : Document.parse b.text = .ok ⟨b.root, []⟩ := by
  have hentries : Reader.blockEntries (4 * b.tokens.length + 2)
      ⟨b.items.flatMap Item.tokens ++ [.blockEnd], [] ++ defaultTags, []⟩ = .ok _ :=
    Reader.blockEntries_items b.items (by
      rw [tokens, List.length_cons, List.length_append]
      omega)
  have hnode : Reader.node (4 * b.tokens.length + 4) .block
      ⟨b.tokens, [] ++ defaultTags, []⟩ = .ok (b.root, ⟨[], [] ++ defaultTags, []⟩) :=
    Reader.node_blockMapping (by decide) hentries
  have hroot : Document.readRoot false [] b.tokens = .ok (⟨b.root, []⟩, []) := by
    rw [Document.readRoot]
    simp only [Bool.false_and, Bool.false_eq_true, if_false, hnode]
    rfl
  rw [Document.parse, text, String.toList_ofList, tokens_chars]
  have hempty : b.tokens.isEmpty = false := rfl
  have hdirectives : Document.readDirectives false [] b.tokens = .ok ([], b.tokens) := rfl
  simp only [bind, Except.bind, Document.ofTokens, hempty, Bool.false_eq_true, if_false, pure,
    Except.pure, hdirectives]
  split
  · rename_i r heq
    rw [tokens] at heq
    cases heq
  · rw [if_neg (Nat.lt_irrefl _), hroot]
    rfl

/-- The entries of a mapping whose keys are names. -/
theorem textEntries_map (d : Document) {α : Type} (name : α → Name) (node : α → Node) :
    ∀ (as : List α), d.textEntries (as.map fun a => ((name a).node, node a)) =
      .ok (as.map fun a => ((name a).label, node a))
  | [] => rfl
  | a :: as => by
    rw [List.map_cons, Document.textEntries, textEntries_map d name node as]
    rfl

/-- The record of a block text has its names, in their order, with what stands behind them. -/
theorem entries_root (b : Block) (d : Document) :
    d.entries b.root = .ok (b.items.map Item.entry) :=
  textEntries_map d Item.name Item.node b.items

/-- A record inside the document has the entries of its section. -/
theorem entries_section (s : Section) (d : Document) :
    d.entries s.node = .ok (s.lines.map Line.entry) :=
  textEntries_map d Line.name (fun l => l.value.node) s.lines

end Block

end MetricRelay.Yaml
