import MetricRelay.Proofs.Number.Literal
import MetricRelay.Proofs.Number.Shortest

/-!
# Written doubles are read back

Each layout writes the shortest digits of a double as a decimal literal, plain or
with an exponent.  Both forms stand for the same number, which is rounded to the
double.  So every finite double is read back bit for bit from its text, in any
layout from a message and without an exponent from free text.

Main results:

- `Layout.chars_finite`: the text of a double is a sign and a literal.
- `Layout.valid_literal`: the literal of a double is well formed.
- `Layout.readNumeral?_chars`: a finite double is read back from a message.
- `Layout.readDouble?_chars`: from free text it is read back if its layout has no exponent.
-/

namespace MetricRelay

open Binary64 (DecimalIn)

namespace Literal

/-- A literal stands for `digits * 10 ^ e`, perhaps with more zeros. -/
structure Denotes (x : Literal) (digits : Nat) (e : Int) (zeros : Nat) : Prop where
  digits_eq : x.digits = digits * 10 ^ zeros
  power_eq : x.power = e - zeros
  zeros_le : zeros ≤ (e + 1).toNat

/-- A literal for a number in the rounding interval of a double is read as that
double. -/
theorem Denotes.ofDecimal_eq {x : Literal} {digits zeros scale : Nat} {e : Int}
    (h : x.Denotes digits e zeros) (negative : Bool) {rank : Fin Binary64.rankCount}
    (hrank : 0 < rank.val) (he : e = (scale : Int) - 1074)
    (hin : DecimalIn rank.val digits scale) :
    Binary64.ofDecimal negative x.digits x.power = .finite negative rank := by
  have hzeros := h.zeros_le
  have hle : zeros ≤ scale := by omega
  refine @Binary64.ofDecimal_eq negative rank _ (scale - zeros) _ hrank ?_ ?_
  · rw [h.power_eq]
    omega
  · unfold DecimalIn
    rw [h.digits_eq, Nat.mul_assoc, ← pow_add, Nat.add_sub_cancel' hle]
    exact hin

end Literal

namespace Layout

/-! ## Plain literals -/

/-- Digits that end at `10 ^ e`, without an exponent. -/
def plainLiteral (l : Layout) (digits : List Char) (e : Int) : Literal :=
  if 0 ≤ e then
    { whole := digits ++ List.replicate e.toNat '0'
      fraction := if l.keepPoint then some ['0'] else none
      exponent := none }
  else if (-e).toNat < digits.length then
    { whole := digits.take (digits.length - (-e).toNat)
      fraction := some (digits.drop (digits.length - (-e).toNat))
      exponent := none }
  else
    { whole := ['0']
      fraction := some (List.replicate ((-e).toNat - digits.length) '0' ++ digits)
      exponent := none }

/-- Plain digits are the characters of a literal. -/
theorem plain_eq_chars (l : Layout) (digits : List Char) (e : Int) :
    l.plain digits e = (l.plainLiteral digits e).chars := by
  unfold plain plainLiteral Literal.chars
  split
  · cases l.keepPoint <;> simp
  · simp only
    split <;> simp

/-- Digits as a natural number has them: there are some, and none of them is a
leading zero unless it is alone. -/
structure IsNatural (digits : List Char) : Prop where
  all_isDigit : digits.all isDigit = true
  ne_nil : digits ≠ []
  head : digits.head? ≠ some '0' ∨ digits = ['0']

theorem isNatural_natChars {n : Nat} (h : 0 < n) : IsNatural (natChars n) :=
  ⟨all_isDigit_natChars n, natChars_ne_nil n, Or.inl (head?_natChars h)⟩

/-- Zeros are digits. -/
theorem all_isDigit_replicate_zero (n : Nat) : (List.replicate n '0').all isDigit = true := by
  rw [List.all_eq_true]
  intro c hc
  rw [(List.mem_replicate.1 hc).2]
  rfl

/-- A number is a valid literal in plain digits, unless it is a zero with an exponent. -/
theorem valid_plainLiteral (l : Layout) {digits : List Char} {e : Int} (h : IsNatural digits)
    (hzero : digits = ['0'] → e = 0) : (l.plainLiteral digits e).Valid := by
  have hdigits := List.all_eq_true.1 h.all_isDigit
  have hlen : 0 < digits.length := List.length_pos_iff.2 h.ne_nil
  have hhead : digits ≠ ['0'] → digits.head? ≠ some '0' := fun hne => h.head.resolve_right hne
  unfold plainLiteral
  split
  · rename_i hnonneg
    refine ⟨?_, ?_, ?_, ?_, ?_, ?_⟩
    · rw [List.all_append, h.all_isDigit, all_isDigit_replicate_zero]
      rfl
    · simp [h.ne_nil]
    · by_cases hd : digits = ['0']
      · right
        rw [hd, hzero hd]
        rfl
      · left
        rcases List.exists_cons_of_ne_nil h.ne_nil with ⟨c, r, rfl⟩
        exact hhead hd
    · intro f hf
      cases hk : l.keepPoint <;> simp [hk] at hf
      subst hf
      exact ⟨rfl, List.cons_ne_nil _ _⟩
    · exact Or.inl rfl
    · intro x hx
      cases hx
  · rename_i hneg
    have hd : digits ≠ ['0'] := fun hd => by
      have := hzero hd
      omega
    split
    · rename_i hplaces
      refine ⟨?_, ?_, ?_, ?_, ?_, ?_⟩
      · exact List.all_eq_true.2 fun c hc => hdigits c (List.mem_of_mem_take hc)
      · intro hnil
        have hlength := congrArg List.length hnil
        rw [List.length_take, List.length_nil] at hlength
        omega
      · left
        rw [List.head?_take, if_neg (by omega)]
        exact hhead hd
      · intro f hf
        cases hf
        refine ⟨List.all_eq_true.2 fun c hc => hdigits c (List.mem_of_mem_drop hc), ?_⟩
        intro hnil
        have hlength := congrArg List.length hnil
        rw [List.length_drop, List.length_nil] at hlength
        omega
      · exact Or.inl rfl
      · intro x hx
        cases hx
    · refine ⟨rfl, List.cons_ne_nil _ _, Or.inr rfl, ?_, Or.inl rfl, ?_⟩
      · intro f hf
        cases hf
        rw [List.all_append, h.all_isDigit, all_isDigit_replicate_zero]
        exact ⟨rfl, by simp [h.ne_nil]⟩
      · intro x hx
        cases hx

/-- A plain literal stands for the digits at their power of ten. -/
theorem denotes_plainLiteral (l : Layout) (digits : List Char) (e : Int) :
    ∃ zeros, (l.plainLiteral digits e).Denotes (digitsNat digits) e zeros := by
  unfold plainLiteral
  split
  · rename_i hnonneg
    cases hk : l.keepPoint with
    | false =>
      refine ⟨e.toNat, ?_, ?_, by omega⟩
      · simp [Literal.digits, digitsNat_append, digitsNat_replicate_zero]
      · simp [Literal.power, Literal.powerIn, Literal.exponentIn]
        omega
    | true =>
      refine ⟨e.toNat + 1, ?_, ?_, by omega⟩
      · have hzeros := digitsNat_replicate_zero (e.toNat + 1)
        rw [List.replicate_succ'] at hzeros
        simp [Literal.digits, digitsNat_append digits, hzeros]
      · simp [Literal.power, Literal.powerIn, Literal.exponentIn]
        omega
  · rename_i hneg
    refine ⟨0, ?_, ?_, by omega⟩
    · split
      · simp [Literal.digits]
      · simp [Literal.digits, ← List.cons_append, ← List.replicate_succ, digitsNat_append,
          digitsNat_replicate_zero]
    · split <;> simp [Literal.power, Literal.powerIn, Literal.exponentIn] <;> omega

/-! ## Literals with an exponent -/

/-- Digits whose leading one stands for `10 ^ power`, with that power behind
them. -/
def scientificLiteral (l : Layout) (digits : List Char) (power : Int) : Literal where
  whole := digits.take 1
  fraction := if digits.length ≤ 1 then none else some (digits.drop 1)
  exponent := some ((if l.plusExponent && 0 ≤ power then ['+'] else []) ++ intChars power)

/-- Scientific notation has the characters of a literal too. -/
theorem scientific_eq_chars (l : Layout) {digits : List Char} (power : Int) (h : digits ≠ []) :
    l.scientific digits power = (l.scientificLiteral digits power).chars := by
  unfold scientific scientificLiteral Literal.chars
  match digits, h with
  | [d], _ => simp
  | d :: e :: r, _ => simp

/-- An exponent is written with a minus, with a plus, or without a sign. -/
theorem exponent_cases (plus : Bool) (power : Int) :
    ∃ n, (if plus && 0 ≤ power then ['+'] else []) ++ intChars power = natChars n ∧ power = n ∨
      (if plus && 0 ≤ power then ['+'] else []) ++ intChars power = '-' :: natChars n ∧
        power = -(n : Int) ∨
      (if plus && 0 ≤ power then ['+'] else []) ++ intChars power = '+' :: natChars n ∧
        power = n := by
  cases power with
  | ofNat n =>
    refine ⟨n, ?_⟩
    cases plus with
    | false => exact Or.inl ⟨rfl, rfl⟩
    | true =>
      right
      right
      simp [intChars]
  | negSucc n =>
    refine ⟨n + 1, Or.inr (Or.inl ⟨?_, by omega⟩)⟩
    have hneg : ¬ 0 ≤ Int.negSucc n := by omega
    simp [hneg, intChars]

/-- A number is a valid literal in scientific notation. -/
theorem valid_scientificLiteral (l : Layout) {digits : List Char} (power : Int)
    (h : IsNatural digits) : (l.scientificLiteral digits power).Valid := by
  have hdigits := List.all_eq_true.1 h.all_isDigit
  refine ⟨?_, ?_, ?_, ?_, Or.inl rfl, ?_⟩
  · exact List.all_eq_true.2 fun c hc => hdigits c (List.mem_of_mem_take hc)
  · rcases List.exists_cons_of_ne_nil h.ne_nil with ⟨c, r, rfl⟩
    exact List.cons_ne_nil _ _
  · rcases List.exists_cons_of_ne_nil h.ne_nil with ⟨c, r, rfl⟩
    by_cases hc : c = '0'
    · right
      rw [hc]
      rfl
    · left
      simpa [scientificLiteral] using hc
  · intro f hf
    unfold scientificLiteral at hf
    simp only [Option.mem_def, Option.ite_none_left_eq_some, Option.some.injEq] at hf
    rcases hf with ⟨hlen, rfl⟩
    refine ⟨List.all_eq_true.2 fun c hc => hdigits c (List.mem_of_mem_drop hc), ?_⟩
    intro hnil
    have hlength := congrArg List.length hnil
    rw [List.length_drop, List.length_nil] at hlength
    omega
  · intro x hx
    cases hx
    rcases exponent_cases l.plusExponent power with ⟨n, hcases⟩
    refine ⟨natChars n, ⟨all_isDigit_natChars n, natChars_ne_nil n⟩, ?_⟩
    rcases hcases with ⟨h, -⟩ | ⟨h, -⟩ | ⟨h, -⟩
    · exact Or.inl h
    · exact Or.inr (Or.inl h)
    · exact Or.inr (Or.inr h)

/-- A literal with an exponent stands for the digits at the power of ten of the
last one. -/
theorem denotes_scientificLiteral (l : Layout) {digits : List Char} {e : Int}
    (h : digits ≠ []) :
    (l.scientificLiteral digits (e + digits.length - 1)).Denotes (digitsNat digits) e 0 := by
  have hlen : 0 < digits.length := List.length_pos_iff.2 h
  have hread : readSigned? digitsNat
      ((if l.plusExponent && 0 ≤ e + digits.length - 1 then ['+'] else []) ++
        intChars (e + digits.length - 1)) = some (e + digits.length - 1) := by
    rcases exponent_cases l.plusExponent (e + digits.length - 1) with
      ⟨n, ⟨h, hn⟩ | ⟨h, hn⟩ | ⟨h, hn⟩⟩
    · rw [h, hn]
      exact readInt?_natChars n
    · rw [h, hn]
      exact readInt?_neg_natChars n
    · rw [h, hn]
      exact readInt?_plus_natChars n
  refine ⟨?_, ?_, by omega⟩
  · unfold scientificLiteral Literal.digits
    split
    · rw [Option.getD_none, List.append_nil, List.take_of_length_le (by omega)]
      simp
    · rw [Option.getD_some, List.take_append_drop]
      simp
  · unfold scientificLiteral Literal.power Literal.powerIn Literal.exponentIn
    simp only [Option.bind_some, hread, Option.getD_some]
    split
    · simp only [Option.getD_none, List.length_nil]
      omega
    · simp only [Option.getD_some, List.length_drop]
      omega

/-! ## Doubles -/

/-- The literal of the finite double of a rank, without its sign. -/
def literal (l : Layout) (rank : Nat) : Literal :=
  if rank = 0 then l.plainLiteral ['0'] 0
  else
    let s := shortest l.tie rank
    let digits := natChars s.1
    let power := s.2 + digits.length - 1
    if l.isPlain power then l.plainLiteral digits s.2 else l.scientificLiteral digits power

/-- The magnitude of a double is written as a literal. -/
theorem magnitude_eq_chars (l : Layout) (rank : Nat) : l.magnitude rank = (l.literal rank).chars := by
  unfold magnitude literal
  split
  · exact plain_eq_chars _ _ _
  · simp only
    split
    · exact plain_eq_chars _ _ _
    · exact scientific_eq_chars _ _ (natChars_ne_nil _)

/-- The text of a finite double is a sign and a literal. -/
theorem chars_finite (l : Layout) (negative : Bool) (rank : Fin Binary64.rankCount) :
    l.chars (.finite negative rank) = (l.literal rank.val).signed negative := by
  rw [chars, magnitude_eq_chars]
  rfl

/-- The literal of a double is well formed. -/
theorem valid_literal (l : Layout) (rank : Nat) : (l.literal rank).Valid := by
  unfold literal
  split
  · exact valid_plainLiteral l ⟨rfl, List.cons_ne_nil _ _, Or.inr rfl⟩ fun _ => rfl
  · rename_i hrank
    rcases decimalIn_shortest (Nat.pos_of_ne_zero hrank) l.tie with ⟨scale, -, hin⟩
    have hnatural := isNatural_natChars (hin.digits_pos (Nat.pos_of_ne_zero hrank))
    have hhead := head?_natChars (hin.digits_pos (Nat.pos_of_ne_zero hrank))
    simp only
    split
    · apply valid_plainLiteral l hnatural
      intro hzero
      rw [hzero] at hhead
      exact absurd rfl hhead
    · exact valid_scientificLiteral l _ hnatural

/-- The literal of a positive double stands for its shortest digits. -/
theorem denotes_literal (l : Layout) {rank : Nat} (h : 0 < rank) :
    ∃ zeros, (l.literal rank).Denotes (shortest l.tie rank).1 (shortest l.tie rank).2 zeros := by
  unfold literal
  rw [if_neg (by omega)]
  simp only
  split
  · rcases denotes_plainLiteral l (natChars (shortest l.tie rank).1) (shortest l.tie rank).2 with
      ⟨zeros, hdenotes⟩
    rw [digitsNat_natChars] at hdenotes
    exact ⟨zeros, hdenotes⟩
  · have hdenotes := denotes_scientificLiteral l (e := (shortest l.tie rank).2)
      (natChars_ne_nil (shortest l.tie rank).1)
    rw [digitsNat_natChars] at hdenotes
    exact ⟨0, hdenotes⟩

/-- The literal of a double is read as the double. -/
theorem ofDecimal_literal (l : Layout) (negative : Bool) (rank : Fin Binary64.rankCount) :
    Binary64.ofDecimal negative (l.literal rank.val).digits (l.literal rank.val).power =
      .finite negative rank := by
  rcases Nat.eq_zero_or_pos rank.val with hzero | hpos
  · have hdigits : (l.literal rank.val).digits = 0 := by
      rcases denotes_plainLiteral l ['0'] 0 with ⟨zeros, hdenotes⟩
      rw [hzero, literal, if_pos rfl, hdenotes.digits_eq]
      exact Nat.zero_mul _
    have hrank : rank = ⟨0, by decide⟩ := Fin.ext hzero
    rw [hdigits, Binary64.ofDecimal, if_pos rfl, hrank]
    rfl
  · rcases decimalIn_shortest hpos l.tie with ⟨scale, he, hin⟩
    rcases denotes_literal l hpos with ⟨zeros, hdenotes⟩
    exact hdenotes.ofDecimal_eq negative hpos he hin

/-- Plain digits have no exponent. -/
theorem exponent_plainLiteral (l : Layout) (digits : List Char) (e : Int) :
    (l.plainLiteral digits e).exponent = none := by
  unfold plainLiteral
  split
  · rfl
  · split <;> rfl

/-- A layout without bounds writes no exponent. -/
theorem exponent_literal {l : Layout} (hleast : l.leastPlain = none) (hmost : l.mostPlain = none)
    (rank : Nat) : (l.literal rank).exponent = none := by
  have hplain (power : Int) : l.isPlain power = true := by
    simp [isPlain, hleast, hmost]
  unfold literal
  split
  · exact exponent_plainLiteral l _ _
  · simp only [hplain, if_true]
    exact exponent_plainLiteral l _ _

/-- A finite double is read back bit for bit from a message in any layout. -/
theorem readNumeral?_chars (l : Layout) {x : Binary64} (h : x.isFinite = true) :
    readNumeral? (l.chars x) = some x := by
  cases x with
  | nan => cases h
  | infinite => cases h
  | finite negative rank =>
    rw [chars_finite, Literal.readNumeral?_signed (valid_literal l rank.val), ofDecimal_literal]

/-- A finite double is read back bit for bit from free text in a layout without
exponents. -/
theorem readDouble?_chars {l : Layout} (hleast : l.leastPlain = none)
    (hmost : l.mostPlain = none) {x : Binary64} (h : x.isFinite = true) :
    readDouble? (l.chars x) = some x := by
  cases x with
  | nan => cases h
  | infinite => cases h
  | finite negative rank =>
    rw [chars_finite, Literal.readDouble?_signed (valid_literal l rank.val),
      Literal.powerIn_of_exponent_none (exponent_literal hleast hmost rank.val), ofDecimal_literal]

end Layout

end MetricRelay
