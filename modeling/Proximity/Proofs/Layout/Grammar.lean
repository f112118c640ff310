import Proximity.Layout.Compile
import Proximity.Proofs.Bytes.Hex
import Proximity.Proofs.Outcome

/-! The grammar of a term. Reading a term gives the field that the grammar assigns to it, and fails
on a term to which the grammar assigns none. -/

namespace Proximity

/-- One or more decimal digits spell an offset. -/
def SpellsOffset (text : List Char) (n : Nat) : Prop :=
  (text ≠ [] ∧ ∀ c ∈ text, c.isDigit) ∧ Nat.ofDigitChars 10 text 0 = n ∧ n ≤ maxOffset

/-- Two offsets with a dash between them spell a span. -/
def SpellsSpan (text : List Char) (span : Span) : Prop :=
  ∃ before after, text = before ++ '-' :: after ∧
    SpellsOffset before span.first ∧ SpellsOffset after span.last

/-- A span and, behind an equals sign, a number in hexadecimal digits spell the span with the bytes
of the number, if they fit. -/
def SpellsPattern (text : List Char) (pattern : Pattern) (n : Nat) : Prop :=
  ∃ range digits, text = range ++ '=' :: digits ∧ SpellsSpan range pattern.span ∧
    Hex.Numeral digits n ∧ n < 256 ^ pattern.span.width ∧
    pattern.expected = Bytes.ofNat pattern.span.width n

theorem SpellsOffset.not_mem {text : List Char} {n : Nat} (spells : SpellsOffset text n)
    {mark : Char} (other : mark.isDigit = false) : mark ∉ text := fun member => by
  have digit := spells.1.2 mark member
  rw [other] at digit
  cases digit

theorem SpellsSpan.last_le {text : List Char} {span : Span} (spells : SpellsSpan text span) :
    span.last ≤ maxOffset := by
  obtain ⟨_, _, _, _, -, -, within⟩ := spells
  exact within

theorem SpellsPattern.last_le {text : List Char} {pattern : Pattern} {n : Nat}
    (spells : SpellsPattern text pattern n) : pattern.span.last ≤ maxOffset := by
  obtain ⟨_, _, _, spans, _⟩ := spells
  exact spans.last_le

theorem SpellsPattern.length_expected {text : List Char} {pattern : Pattern} {n : Nat}
    (spells : SpellsPattern text pattern n) : pattern.expected.length = pattern.span.width := by
  obtain ⟨_, _, _, _, _, _, same⟩ := spells
  rw [same, Bytes.length_ofNat]

theorem SpellsPattern.lt {text : List Char} {pattern : Pattern} {n : Nat}
    (spells : SpellsPattern text pattern n) : n < 256 ^ pattern.span.width := by
  obtain ⟨_, _, _, _, _, fits, _⟩ := spells
  exact fits

namespace Field

/-- The term declares the field. -/
inductive Declares : List Char → Field → Prop
  | matcher {text : List Char} {pattern : Pattern} {n : Nat} :
    SpellsPattern text pattern n → Declares ('m' :: ':' :: text) (.matcher pattern)
  | identifier {text : List Char} {span : Span} :
    SpellsSpan text span → Declares ('i' :: ':' :: text) (.identifier ⟨span, .big⟩)
  | identifierLittle {text : List Char} {span : Span} :
    SpellsSpan text span → Declares ('i' :: ':' :: text ++ ['l']) (.identifier ⟨span, .little⟩)
  | power {text : List Char} {span : Span} :
    SpellsSpan text span → Declares ('p' :: ':' :: text) (.power span)
  | data {text : List Char} {span : Span} :
    SpellsSpan text span → Declares ('d' :: ':' :: text) (.data ⟨span, .big⟩)
  | dataBig {text : List Char} {span : Span} :
    SpellsSpan text span → Declares ('d' :: ':' :: text ++ ['b']) (.data ⟨span, .big⟩)
  | dataLittle {text : List Char} {span : Span} :
    SpellsSpan text span → Declares ('d' :: ':' :: text ++ ['l']) (.data ⟨span, .little⟩)
  | service {text : List Char} {pattern : Pattern} {n : Nat} :
    SpellsPattern text pattern n → n < 2 ^ 32 → Declares ('s' :: ':' :: text) (.service pattern)

theorem readOffset_eq_ok_iff {text : List Char} {n : Nat} :
    readOffset text = .ok n ↔ SpellsOffset text n := by
  unfold readOffset Decimal.read? SpellsOffset
  rw [← List.all_eq_true]
  split
  · rename_i refused
    rw [ite_eq_right_iff] at refused
    refine ⟨fun h => (by cases h), fun h => ?_⟩
    cases refused h.1
  · rename_i value accepted
    obtain ⟨digits, same⟩ := Option.ite_none_right_eq_some.mp accepted
    cases same
    split
    · rename_i small
      rw [Except.ok.injEq]
      exact ⟨fun same => ⟨digits, same, same ▸ small⟩, fun h => h.2.1⟩
    · rename_i large
      refine ⟨fun h => (by cases h), ?_⟩
      rintro ⟨-, rfl, small⟩
      exact absurd small large

/-- Only digits and a dash spell a span, and the last of them is a digit. -/
theorem mem_of_spellsSpan {text : List Char} {span : Span} (spells : SpellsSpan text span) :
    (∀ c ∈ text, c.isDigit ∨ c = '-') ∧ ∀ c ∈ text.getLast?, c.isDigit := by
  obtain ⟨before, after, rfl, ⟨⟨-, front⟩, -⟩, ⟨⟨nonempty, back⟩, -⟩⟩ := spells
  constructor
  · intro c member
    rcases List.mem_append.mp member with early | late
    · exact Or.inl (front c early)
    · rcases List.mem_cons.mp late with dash | later
      · exact Or.inr dash
      · exact Or.inl (back c later)
  · intro c last
    rw [List.getLast?_append, List.getLast?_cons,
      List.getLast?_eq_getLast_of_ne_nil nonempty] at last
    cases last
    exact back _ (List.getLast_mem nonempty)

theorem not_equals_of_spellsSpan {text : List Char} {span : Span} (spells : SpellsSpan text span) :
    '=' ∉ text := fun member => by
  rcases (mem_of_spellsSpan spells).1 _ member with digit | dash
  · exact absurd digit (by decide)
  · exact absurd dash (by decide)

theorem readSpan_eq_ok_iff {text : List Char} {span : Span} :
    readSpan text = .ok span ↔ SpellsSpan text span := by
  constructor
  · intro h
    unfold readSpan at h
    split at h
    · rename_i before after cut
      obtain ⟨first, readsFirst, h⟩ := bind_eq_ok.mp h
      obtain ⟨last, readsLast, h⟩ := bind_eq_ok.mp h
      split at h
      · cases h
        exact ⟨before, after, (Cut.atFirst?_eq_some_iff.mp cut).2,
          readOffset_eq_ok_iff.mp readsFirst, readOffset_eq_ok_iff.mp readsLast⟩
      · cases h
    · cases h
  · rintro ⟨before, after, rfl, first, last⟩
    have ordered := span.first_le_last
    rw [readSpan, Cut.atFirst?_eq_some_iff.mpr ⟨first.not_mem rfl, rfl⟩]
    refine bind_eq_ok.mpr ⟨_, readOffset_eq_ok_iff.mpr first,
      bind_eq_ok.mpr ⟨_, readOffset_eq_ok_iff.mpr last, ?_⟩⟩
    rw [dif_pos ordered]
    rfl

theorem readExpected_eq_ok_iff {width most : Nat} {digits : List Char} {bytes : Bytes} :
    readExpected width most digits = .ok bytes ↔
      ∃ n, Hex.Numeral digits n ∧ n < 256 ^ most ∧ bytes = Bytes.ofNat width n := by
  constructor
  · intro h
    unfold readExpected at h
    split at h
    · rename_i read reads
      dsimp only at h
      split at h
      · rename_i short
        cases h
        refine ⟨_, Hex.numeral_of_read? reads, Bytes.length_dropWhile_zero_le_iff.mp short, ?_⟩
        rw [Bytes.fit_eq_ofNat, Bytes.value_dropWhile_zero]
      · cases h
    · cases h
  · rintro ⟨n, numeral, small, rfl⟩
    obtain ⟨read, reads, rfl⟩ := Hex.exists_read? numeral
    rw [readExpected, reads]
    dsimp only
    rw [if_pos (Bytes.length_dropWhile_zero_le_iff.mpr small), Bytes.fit_eq_ofNat,
      Bytes.value_dropWhile_zero]
    rfl

/-- A pattern is read if its number is small enough for its bytes and for the bound. -/
theorem readPattern_eq_ok_iff (most : Nat → Nat) {text : List Char} {pattern : Pattern}
    (bounded : most pattern.span.width ≤ pattern.span.width) :
    readPattern most text = .ok pattern ↔
      ∃ n, SpellsPattern text pattern n ∧ n < 256 ^ most pattern.span.width := by
  constructor
  · intro h
    unfold readPattern at h
    split at h
    · rename_i range digits cut
      obtain ⟨span, readsSpan, h⟩ := bind_eq_ok.mp h
      obtain ⟨expected, readsExpected, h⟩ := bind_eq_ok.mp h
      cases h
      obtain ⟨n, numeral, small, same⟩ := readExpected_eq_ok_iff.mp readsExpected
      have fits : n < 256 ^ span.width :=
        Nat.lt_of_lt_of_le small (Nat.pow_le_pow_right (by decide) bounded)
      exact ⟨n, ⟨range, digits, (Cut.atFirst?_eq_some_iff.mp cut).2,
        readSpan_eq_ok_iff.mp readsSpan, numeral, fits, same⟩, small⟩
    · cases h
  · rintro ⟨n, ⟨range, digits, rfl, spans, numeral, -, same⟩, small⟩
    rw [readPattern, Cut.atFirst?_eq_some_iff.mpr ⟨not_equals_of_spellsSpan spans, rfl⟩]
    exact bind_eq_ok.mpr ⟨_, readSpan_eq_ok_iff.mpr spans,
      bind_eq_ok.mpr ⟨_, readExpected_eq_ok_iff.mpr ⟨n, numeral, small, same⟩, rfl⟩⟩

/-- A mark that is no digit does not end a span. -/
theorem beforeLast?_of_spellsSpan (mark : Char) (noDigit : mark.isDigit = false) {text : List Char}
    {span : Span} (spells : SpellsSpan text span) : Cut.beforeLast? mark text = none := by
  cases cut : Cut.beforeLast? mark text with
  | none => rfl
  | some before =>
    rw [Cut.beforeLast?_eq_some_iff.mp cut] at spells
    have digit := (mem_of_spellsSpan spells).2 mark (by simp)
    rw [noDigit] at digit
    cases digit

theorem identifierOrder_cases (text : List Char) :
    (∃ range, text = range ++ ['l'] ∧ identifierOrder text = (range, .little)) ∨
      identifierOrder text = (text, .big) := by
  unfold identifierOrder
  split
  · rename_i range cut
    exact Or.inl ⟨range, Cut.beforeLast?_eq_some_iff.mp cut, rfl⟩
  · exact Or.inr rfl

theorem dataOrder_cases (text : List Char) :
    (∃ range, text = range ++ ['l'] ∧ dataOrder text = (range, .little)) ∨
      (∃ range, text = range ++ ['b'] ∧ dataOrder text = (range, .big)) ∨
        dataOrder text = (text, .big) := by
  unfold dataOrder
  split
  · rename_i range cut
    exact Or.inl ⟨range, Cut.beforeLast?_eq_some_iff.mp cut, rfl⟩
  · cases cut : Cut.beforeLast? 'b' text with
    | some range => exact Or.inr (Or.inl ⟨range, Cut.beforeLast?_eq_some_iff.mp cut, rfl⟩)
    | none => exact Or.inr (Or.inr rfl)

theorem declares_of_read {term : List Char} {field : Field} (h : read term = .ok field) :
    Declares term field := by
  unfold read at h
  split at h
  · obtain ⟨pattern, reads, h⟩ := bind_eq_ok.mp h
    cases h
    obtain ⟨n, spells, -⟩ := (readPattern_eq_ok_iff id (Nat.le_refl _)).mp reads
    exact .matcher spells
  · obtain ⟨pattern, reads, h⟩ := bind_eq_ok.mp h
    cases h
    obtain ⟨n, spells, small⟩ := (readPattern_eq_ok_iff _ (Nat.min_le_right _ _)).mp reads
    have most := Nat.pow_le_pow_right (show 0 < 256 by decide)
      (Nat.min_le_left maxServiceUuidLength pattern.span.width)
    exact .service spells (Nat.lt_of_lt_of_le small most)
  · obtain ⟨span, reads, h⟩ := bind_eq_ok.mp h
    cases h
    exact .power (readSpan_eq_ok_iff.mp reads)
  · rename_i body
    rcases identifierOrder_cases body with ⟨range, rfl, order⟩ | order <;> rw [order] at h
    · obtain ⟨span, reads, h⟩ := bind_eq_ok.mp h
      cases h
      exact .identifierLittle (readSpan_eq_ok_iff.mp reads)
    · obtain ⟨span, reads, h⟩ := bind_eq_ok.mp h
      cases h
      exact .identifier (readSpan_eq_ok_iff.mp reads)
  · rename_i body
    rcases dataOrder_cases body with ⟨range, rfl, order⟩ | ⟨range, rfl, order⟩ | order <;>
      rw [order] at h
    · obtain ⟨span, reads, h⟩ := bind_eq_ok.mp h
      cases h
      exact .dataLittle (readSpan_eq_ok_iff.mp reads)
    · obtain ⟨span, reads, h⟩ := bind_eq_ok.mp h
      cases h
      exact .dataBig (readSpan_eq_ok_iff.mp reads)
    · obtain ⟨span, reads, h⟩ := bind_eq_ok.mp h
      cases h
      exact .data (readSpan_eq_ok_iff.mp reads)
  · cases h

theorem identifierOrder_little (range : List Char) :
    identifierOrder (range ++ ['l']) = (range, .little) := by
  rw [identifierOrder, Cut.beforeLast?_eq_some_iff.mpr rfl]

theorem dataOrder_little (range : List Char) : dataOrder (range ++ ['l']) = (range, .little) := by
  rw [dataOrder, Cut.beforeLast?_eq_some_iff.mpr rfl]

theorem dataOrder_big (range : List Char) : dataOrder (range ++ ['b']) = (range, .big) := by
  have other : Cut.beforeLast? 'l' (range ++ ['b']) = none := by simp [Cut.beforeLast?]
  rw [dataOrder, other, Cut.beforeLast?_eq_some_iff.mpr rfl]
  rfl

theorem read_of_declares {term : List Char} {field : Field} (h : Declares term field) :
    read term = .ok field := by
  cases h with
  | matcher spells =>
    have reads := (readPattern_eq_ok_iff id (Nat.le_refl _)).mpr ⟨_, spells, spells.lt⟩
    exact bind_eq_ok.mpr ⟨_, reads, rfl⟩
  | identifier spells =>
    have order := beforeLast?_of_spellsSpan 'l' rfl spells
    rw [read, identifierOrder, order]
    exact bind_eq_ok.mpr ⟨_, readSpan_eq_ok_iff.mpr spells, rfl⟩
  | identifierLittle spells =>
    rw [List.cons_append, List.cons_append, read, identifierOrder_little]
    exact bind_eq_ok.mpr ⟨_, readSpan_eq_ok_iff.mpr spells, rfl⟩
  | power spells => exact bind_eq_ok.mpr ⟨_, readSpan_eq_ok_iff.mpr spells, rfl⟩
  | data spells =>
    have little := beforeLast?_of_spellsSpan 'l' rfl spells
    have big := beforeLast?_of_spellsSpan 'b' rfl spells
    rw [read, dataOrder, little, big]
    exact bind_eq_ok.mpr ⟨_, readSpan_eq_ok_iff.mpr spells, rfl⟩
  | dataBig spells =>
    rw [List.cons_append, List.cons_append, read, dataOrder_big]
    exact bind_eq_ok.mpr ⟨_, readSpan_eq_ok_iff.mpr spells, rfl⟩
  | dataLittle spells =>
    rw [List.cons_append, List.cons_append, read, dataOrder_little]
    exact bind_eq_ok.mpr ⟨_, readSpan_eq_ok_iff.mpr spells, rfl⟩
  | @service text pattern n spells small =>
    have most : n < 256 ^ min maxServiceUuidLength pattern.span.width := by
      rcases min_choice maxServiceUuidLength pattern.span.width with four | width
      · rw [four]
        exact small
      · rw [width]
        exact spells.lt
    have reads := (readPattern_eq_ok_iff _ (Nat.min_le_right _ _)).mpr ⟨n, spells, most⟩
    exact bind_eq_ok.mpr ⟨_, reads, rfl⟩

theorem read_eq_ok_iff {term : List Char} {field : Field} :
    read term = .ok field ↔ Declares term field :=
  ⟨declares_of_read, read_of_declares⟩

end Field

end Proximity
