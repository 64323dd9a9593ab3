import MetricRelay.Proofs.Http.Board
import MetricRelay.Proofs.Message.RoundTrip

/-!
# What a tag binds

A tag is computed over one text: name, kind and value with a colon between them.
A name may hold colons itself, so the text is read from its end: neither a kind
nor the text of a value has a colon.  So the text tells metrics apart, and a tag
that fits two metrics is a collision of tags.

Main results:

- `Metric.canonical_injective`: metrics with finite values and the same text are
  the same.
- `Signer.tag_eq_of_fromMessage`: the tag of an accepted message is that of its
  metric.
- `Signer.binds`: one tag for two messages says the same thing, or is a collision.
-/

namespace MetricRelay

/-! ## Colons -/

/-- What stands before and behind the last separator of a text. -/
theorem Text.append_cons_injective {α : Type} {separator : α} {s s' t t' : List α}
    (ht : separator ∉ t) (ht' : separator ∉ t')
    (h : s ++ separator :: t = s' ++ separator :: t') : s = s' ∧ t = t' := by
  have hlength {u u' v v' : List α} (hv : separator ∉ v)
      (h : u ++ separator :: v = u' ++ separator :: v') : ¬ u.length < u'.length := by
    intro hlt
    rcases List.append_eq_append_iff.1 h with ⟨w, rfl, hrest⟩ | ⟨w, rfl, -⟩
    · cases w with
      | nil => simp at hlt
      | cons c w =>
        rw [List.cons_append, List.cons.injEq] at hrest
        rw [hrest.2] at hv
        exact hv (List.mem_append_right w List.mem_cons_self)
    · rw [List.length_append] at hlt
      omega
  have hsame : s.length = s'.length :=
    Nat.le_antisymm (Nat.le_of_not_lt (hlength ht' h.symm)) (Nat.le_of_not_lt (hlength ht h))
  rcases List.append_inj h hsame with ⟨hs, hrest⟩
  exact ⟨hs, (List.cons.inj hrest).2⟩

/-- No kind has a colon in its name. -/
theorem Kind.colon_not_mem_name (kind : Kind) : ':' ∉ kind.name.toList := by
  cases kind <;> decide

/-- No literal has a colon in it. -/
theorem Literal.Valid.colon_not_mem_signed {x : Literal} (h : x.Valid) (negative : Bool) :
    ':' ∉ x.signed negative := by
  intro hmem
  rcases h.mem_signed hmem with hdigit | hother
  · cases hdigit
  · simp at hother

/-- There is no colon in the text of a value. -/
theorem Value.colon_not_mem_canonical {v : Value} (h : v.isFinite = true) :
    ':' ∉ v.canonical.toList := by
  cases v with
  | total n =>
    have htext : (total n).canonical.toList = intChars n.val := String.toList_ofList
    rcases intChars_eq_signed n.val with ⟨negative, size, hsigned⟩
    rw [htext, hsigned]
    exact (valid_natLiteral size).colon_not_mem_signed negative
  | reading x =>
    have htext : (reading x).canonical.toList = Binary64.canonical.chars x := String.toList_ofList
    cases x with
    | nan => cases h
    | infinite negative => cases h
    | finite negative rank =>
      rw [htext, Layout.chars_finite]
      exact (Layout.valid_literal Binary64.canonical rank.val).colon_not_mem_signed negative

/-! ## Metrics -/

namespace Metric

/-- The canonical text is the name, the kind and the value, with colons between them. -/
theorem toList_canonical (m : Metric) :
    m.canonical.toList =
      (m.name.toList ++ ':' :: m.kind.name.toList) ++ ':' :: m.value.canonical.toList := by
  simp [canonical]

/-- The text that a tag is computed over tells metrics apart, whatever colons are
in their names. -/
theorem canonical_injective {m n : Metric} (hm : m.value.isFinite = true)
    (hn : n.value.isFinite = true) (h : m.canonical = n.canonical) : m = n := by
  have hlist := congrArg String.toList h
  rw [toList_canonical, toList_canonical] at hlist
  rcases Text.append_cons_injective (Value.colon_not_mem_canonical hm)
    (Value.colon_not_mem_canonical hn) hlist with ⟨hstart, hvalue⟩
  rcases Text.append_cons_injective m.kind.colon_not_mem_name n.kind.colon_not_mem_name hstart with
    ⟨hname, hkind⟩
  have hkind : m.value.kind = n.value.kind := Kind.name_injective (String.toList_inj.1 hkind)
  have hvalue := Value.canonical_injective hm hn hkind (String.toList_inj.1 hvalue)
  rcases m with ⟨name, value⟩
  rcases n with ⟨name', value'⟩
  rw [mk.injEq]
  exact ⟨String.toList_inj.1 hname, hvalue⟩

/-- The bytes that are signed tell a metric from others. -/
theorem signedBytes_injective {m n : Metric} (hm : m.value.isFinite = true)
    (hn : n.value.isFinite = true) (h : m.signedBytes = n.signedBytes) : m = n := by
  have hread := Utf8.decode?_encode m.canonical
  have hbytes : Utf8.encode m.canonical = Utf8.encode n.canonical := h
  rw [hbytes, Utf8.decode?_encode] at hread
  exact canonical_injective hm hn (Option.some.inj hread).symm

end Metric

/-! ## Tags -/

namespace Signer

variable {s : Signer} {message : Message} {m : Metric}

/-- The tag of a message that is accepted was checked. -/
theorem checkHash_of_fromMessage (h : s.fromMessage message = .ok m) :
    s.checkHash m message.hash = .ok () := by
  unfold fromMessage at h
  cases hkey : message.identity with
  | error e => simp [hkey, bind, Except.bind] at h
  | ok key =>
    cases hvalue : message.value? key.kind with
    | none => simp [hkey, hvalue, bind, Except.bind] at h
    | some value =>
      cases hfinite : value.finite with
      | error e => simp [hkey, hvalue, hfinite, bind, Except.bind] at h
      | ok value' =>
        cases hcheck : s.checkHash ⟨message.id, value'⟩ message.hash with
        | error e => simp [hkey, hvalue, hfinite, hcheck, bind, Except.bind] at h
        | ok u =>
          simp only [hkey, hvalue, hfinite, hcheck, bind, Except.bind, pure, Except.pure,
            Except.ok.injEq] at h
          rw [← h]
          exact hcheck

/-- Where there is a key, the tag of an accepted message is that of its metric. -/
theorem tag_eq_of_fromMessage {key : Utf8.Bytes} (hkey : s.key = some key)
    (h : s.fromMessage message = .ok m) {hash : String} (hhash : message.hash = some hash) :
    Hex.decode? hash = some (Hmac.tag key m.signedBytes) := by
  have hcheck := checkHash_of_fromMessage h
  have henabled : s.isEnabled = true := by
    rw [isEnabled, hkey]
    rfl
  rw [hhash] at hcheck
  simp only [checkHash, henabled, if_true] at hcheck
  cases hdecode : Hex.decode? hash with
  | none => simp [hdecode] at hcheck
  | some tag =>
    simp only [hdecode, verify, sign, hkey, Except.map, bind, Except.bind] at hcheck
    by_cases htag : Hmac.tag key m.signedBytes = tag
    · rw [htag]
    · have hne : (Hmac.tag key m.signedBytes == tag) = false := beq_eq_false_iff_ne.2 htag
      rw [hne] at hcheck
      cases hcheck

/-- The bytes that a tag is computed over tell metrics apart.  So if two messages
are accepted with one tag, they say the same of the same metric, or their bytes
are two different ones for which the key gives the same tag. -/
theorem binds :
    (∀ m n : Metric, m.value.isFinite = true → n.value.isFinite = true →
      m.signedBytes = n.signedBytes → m = n) ∧
    ∀ (key : Utf8.Bytes) (a b : Message) (hash hash' : String) (m n : Metric), key ≠ [] →
      (ofKey key).fromMessage a = .ok m → (ofKey key).fromMessage b = .ok n →
      a.hash = some hash → b.hash = some hash' → Hex.decode? hash = Hex.decode? hash' →
      m = n ∨ (m.signedBytes ≠ n.signedBytes ∧
        Hmac.tag key m.signedBytes = Hmac.tag key n.signedBytes) := by
  refine ⟨fun m n hm hn => Metric.signedBytes_injective hm hn, ?_⟩
  intro key a b hash hash' m n hkey ha hb hhash hhash' hsame
  have hsigner : (ofKey key).key = some key := by
    rw [ofKey, List.isEmpty_eq_false_iff.2 hkey]
    rfl
  have htag := tag_eq_of_fromMessage hsigner ha hhash
  rw [hsame, tag_eq_of_fromMessage hsigner hb hhash', Option.some.injEq] at htag
  by_cases hmn : m = n
  · exact Or.inl hmn
  · have hm := (fromMessage_eq_ok ha).2.2.2.2
    have hn := (fromMessage_eq_ok hb).2.2.2.2
    exact Or.inr ⟨fun h => hmn (Metric.signedBytes_injective hm hn h), htag.symm⟩

/-- A metric whose name looks like a signed text, and two messages of it: one with
the digits of the tag in lower case, and one with them in upper case and a total
that does not count. -/
theorem binds_of_colons :
    let key := Utf8.encode "key"
    let half : Binary64 := .finite false ⟨4602678819172646912, by decide⟩
    let m : Metric := ⟨"x:counter:5", .reading half⟩
    let hash := "f729d3c3d0ed88fbf47afb53e4bd560e74a73b872213ec391b3037e2c6894895"
    let hash' := "F729D3C3D0ED88FBF47AFB53E4BD560E74A73B872213EC391B3037E2C6894895"
    let a : Message := ⟨"x:counter:5", "gauge", none, some half, some hash⟩
    let b : Message := ⟨"x:counter:5", "gauge", some .zero, some half, some hash'⟩
    (m.value.isFinite = true ∧ m = m) ∧
      (ofKey key).fromMessage a = .ok m ∧ (ofKey key).fromMessage b = .ok m ∧
      Hex.decode? hash = Hex.decode? hash' ∧
      (m = m ∨ (m.signedBytes ≠ m.signedBytes ∧
        Hmac.tag key m.signedBytes = Hmac.tag key m.signedBytes)) := by
  intro key half m hash hash' a b
  have ha : (ofKey key).fromMessage a = .ok m := by decide +kernel
  have hb : (ofKey key).fromMessage b = .ok m := by decide +kernel
  have hsame : Hex.decode? hash = Hex.decode? hash' := by decide +kernel
  exact ⟨⟨rfl, binds.1 m m rfl rfl rfl⟩, ha, hb, hsame,
    binds.2 key a b hash hash' m m (by decide) ha hb rfl rfl hsame⟩

end Signer

end MetricRelay
