import Proximity.Proofs.Layout.Grammar
import Proximity.Proofs.Text.Decimal

/-! The faults of a term. A term that declares no field has one fault: the first that is found when
the kind, the equals sign, the dash, the two offsets and their order, the digits and at last the
number of bytes are looked at in turn. -/

namespace Proximity

namespace Field

/-- The text spells no offset, for the given reason. -/
inductive OffsetFault : List Char → TermFault → Prop
  | form {text : List Char} : (∀ n, ¬ Decimal.Numeral text n) → OffsetFault text .form
  | offset {text : List Char} {n : Nat} :
    Decimal.Numeral text n → maxOffset < n → OffsetFault text .offset

/-- The text spells no span, for the given reason. -/
inductive SpanFault : List Char → TermFault → Prop
  | form {text : List Char} : '-' ∉ text → SpanFault text .form
  | first {before after : List Char} {fault : TermFault} :
    '-' ∉ before → OffsetFault before fault → SpanFault (before ++ '-' :: after) fault
  | last {before after : List Char} {first : Nat} {fault : TermFault} :
    SpellsOffset before first → OffsetFault after fault → SpanFault (before ++ '-' :: after) fault
  | order {before after : List Char} {first last : Nat} :
    SpellsOffset before first → SpellsOffset after last → last < first →
      SpanFault (before ++ '-' :: after) (.order first last)

/-- The text spells no pattern of which at most `most width` bytes follow the leading zeros, for the
given reason. -/
inductive PatternFault (most : Nat → Nat) : List Char → TermFault → Prop
  | form {text : List Char} : '=' ∉ text → PatternFault most text .form
  | span {range digits : List Char} {fault : TermFault} :
    '=' ∉ range → SpanFault range fault → PatternFault most (range ++ '=' :: digits) fault
  | hex {range digits : List Char} {span : Span} :
    SpellsSpan range span → (∀ n, ¬ Hex.Numeral digits n) →
      PatternFault most (range ++ '=' :: digits) .hex
  | width {range digits : List Char} {span : Span} {n : Nat} :
    SpellsSpan range span → Hex.Numeral digits n → 256 ^ most span.width ≤ n →
      PatternFault most (range ++ '=' :: digits) .width

/-- The letters with which terms start. -/
def letters : List Char := ['m', 'i', 'p', 'd', 's']

/-- The term declares no field, for the given reason. -/
inductive Faulty : List Char → TermFault → Prop
  | kind {term : List Char} : (∀ letter ∈ letters, ∀ text, term ≠ letter :: ':' :: text) →
    Faulty term .form
  | matcher {text : List Char} {fault : TermFault} :
    PatternFault id text fault → Faulty ('m' :: ':' :: text) fault
  | identifier {text : List Char} {fault : TermFault} :
    text.getLast? ≠ some 'l' → SpanFault text fault → Faulty ('i' :: ':' :: text) fault
  | identifierLittle {text : List Char} {fault : TermFault} :
    SpanFault text fault → Faulty ('i' :: ':' :: text ++ ['l']) fault
  | power {text : List Char} {fault : TermFault} :
    SpanFault text fault → Faulty ('p' :: ':' :: text) fault
  | data {text : List Char} {fault : TermFault} :
    text.getLast? ≠ some 'l' → text.getLast? ≠ some 'b' → SpanFault text fault →
      Faulty ('d' :: ':' :: text) fault
  | dataBig {text : List Char} {fault : TermFault} :
    SpanFault text fault → Faulty ('d' :: ':' :: text ++ ['b']) fault
  | dataLittle {text : List Char} {fault : TermFault} :
    SpanFault text fault → Faulty ('d' :: ':' :: text ++ ['l']) fault
  | service {text : List Char} {fault : TermFault} :
    PatternFault (min maxServiceUuidLength) text fault → Faulty ('s' :: ':' :: text) fault

theorem readOffset_eq_error_iff {text : List Char} {fault : TermFault} :
    readOffset text = .error fault ↔ OffsetFault text fault := by
  unfold readOffset
  cases reads : Decimal.read? text with
  | none =>
    have unread (n : Nat) : ¬ Decimal.Numeral text n := fun numeral => by
      cases reads.symm.trans (Decimal.read?_eq_some_iff.mpr numeral)
    constructor
    · rintro ⟨⟩
      exact .form unread
    · rintro (none | numeral)
      · rfl
      · exact absurd numeral (unread _)
  | some n =>
    have numeral := Decimal.read?_eq_some_iff.mp reads
    constructor
    · intro h
      dsimp only at h
      split at h
      · cases h
      · rename_i large
        cases h
        exact .offset numeral (Nat.lt_of_not_le large)
    · rintro (none | ⟨same, large⟩)
      · exact absurd numeral (none n)
      · obtain rfl := numeral.2.symm.trans same.2
        exact if_neg (Nat.not_le_of_lt large)

theorem readSpan_eq_error_iff {text : List Char} {fault : TermFault} :
    readSpan text = .error fault ↔ SpanFault text fault := by
  constructor
  · intro h
    unfold readSpan at h
    split at h
    · rename_i before after cut
      obtain ⟨noDash, rfl⟩ := Cut.atFirst?_eq_some_iff.mp cut
      rcases bind_eq_error.mp h with fails | ⟨first, readsFirst, h⟩
      · exact .first noDash (readOffset_eq_error_iff.mp fails)
      have spellsFirst := readOffset_eq_ok_iff.mp readsFirst
      rcases bind_eq_error.mp h with fails | ⟨last, readsLast, h⟩
      · exact .last spellsFirst (readOffset_eq_error_iff.mp fails)
      split at h
      · cases h
      · rename_i disordered
        cases h
        exact .order spellsFirst (readOffset_eq_ok_iff.mp readsLast) (Nat.lt_of_not_le disordered)
    · rename_i uncut
      cases h
      exact .form (Cut.atFirst?_eq_none_iff.mp (Option.eq_none_iff_forall_ne_some.mpr
        fun parts => uncut parts.1 parts.2))
  · intro h
    cases h with
    | form noDash => rw [readSpan, Cut.atFirst?_eq_none_iff.mpr noDash]
    | first noDash fails =>
      rw [readSpan, Cut.atFirst?_eq_some_iff.mpr ⟨noDash, rfl⟩]
      exact bind_eq_error.mpr (.inl (readOffset_eq_error_iff.mpr fails))
    | last spellsFirst fails =>
      rw [readSpan, Cut.atFirst?_eq_some_iff.mpr ⟨spellsFirst.not_mem rfl, rfl⟩]
      exact bind_eq_error.mpr (.inr ⟨_, readOffset_eq_ok_iff.mpr spellsFirst,
        bind_eq_error.mpr (.inl (readOffset_eq_error_iff.mpr fails))⟩)
    | order spellsFirst spellsLast disordered =>
      rw [readSpan, Cut.atFirst?_eq_some_iff.mpr ⟨spellsFirst.not_mem rfl, rfl⟩]
      refine bind_eq_error.mpr (.inr ⟨_, readOffset_eq_ok_iff.mpr spellsFirst,
        bind_eq_error.mpr (.inr ⟨_, readOffset_eq_ok_iff.mpr spellsLast, ?_⟩)⟩)
      exact dif_neg (Nat.not_le_of_lt disordered)

theorem readExpected_eq_error_iff {width most : Nat} {digits : List Char} {fault : TermFault} :
    readExpected width most digits = .error fault ↔
      ((∀ n, ¬ Hex.Numeral digits n) ∧ fault = .hex) ∨
        ∃ n, Hex.Numeral digits n ∧ 256 ^ most ≤ n ∧ fault = .width := by
  have reads {n : Nat} (numeral : Hex.Numeral digits n) := Hex.exists_read? numeral
  unfold readExpected
  cases read : Hex.read? digits with
  | none =>
    have unread (n : Nat) : ¬ Hex.Numeral digits n := fun numeral => by
      obtain ⟨bytes, same, -⟩ := reads numeral
      cases read.symm.trans same
    constructor
    · rintro ⟨⟩
      exact .inl ⟨unread, rfl⟩
    · rintro (⟨-, rfl⟩ | ⟨n, numeral, -⟩)
      · rfl
      · exact absurd numeral (unread n)
  | some bytes =>
    have numeral := Hex.numeral_of_read? read
    have short : (bytes.dropWhile (· == 0)).length ≤ most ↔ Bytes.value bytes < 256 ^ most :=
      Bytes.length_dropWhile_zero_le_iff
    dsimp only
    constructor
    · intro h
      split at h
      · cases h
      · rename_i long
        cases h
        exact .inr ⟨_, numeral, Nat.le_of_not_lt fun small => long (short.mpr small), rfl⟩
    · rintro (⟨none, -⟩ | ⟨n, other, large, rfl⟩)
      · exact absurd numeral (none _)
      · obtain ⟨same, again, rfl⟩ := reads other
        cases read.symm.trans again
        exact if_neg fun fits => absurd (short.mp fits) (Nat.not_lt_of_le large)

theorem readPattern_eq_error_iff {most : Nat → Nat} {text : List Char} {fault : TermFault} :
    readPattern most text = .error fault ↔ PatternFault most text fault := by
  constructor
  · intro h
    unfold readPattern at h
    split at h
    · rename_i range digits cut
      obtain ⟨noEquals, rfl⟩ := Cut.atFirst?_eq_some_iff.mp cut
      rcases bind_eq_error.mp h with fails | ⟨span, readsSpan, h⟩
      · exact .span noEquals (readSpan_eq_error_iff.mp fails)
      have spells := readSpan_eq_ok_iff.mp readsSpan
      rcases bind_eq_error.mp h with fails | ⟨_, _, h⟩
      · rcases readExpected_eq_error_iff.mp fails with ⟨none, rfl⟩ | ⟨n, numeral, large, rfl⟩
        · exact .hex spells none
        · exact .width spells numeral large
      · cases h
    · rename_i uncut
      cases h
      exact .form (Cut.atFirst?_eq_none_iff.mp (Option.eq_none_iff_forall_ne_some.mpr
        fun parts => uncut parts.1 parts.2))
  · intro h
    cases h with
    | form noEquals => rw [readPattern, Cut.atFirst?_eq_none_iff.mpr noEquals]
    | span noEquals fails =>
      rw [readPattern, Cut.atFirst?_eq_some_iff.mpr ⟨noEquals, rfl⟩]
      exact bind_eq_error.mpr (.inl (readSpan_eq_error_iff.mpr fails))
    | hex spells none =>
      rw [readPattern, Cut.atFirst?_eq_some_iff.mpr ⟨not_equals_of_spellsSpan spells, rfl⟩]
      exact bind_eq_error.mpr (.inr ⟨_, readSpan_eq_ok_iff.mpr spells,
        bind_eq_error.mpr (.inl (readExpected_eq_error_iff.mpr (.inl ⟨none, rfl⟩)))⟩)
    | width spells numeral large =>
      rw [readPattern, Cut.atFirst?_eq_some_iff.mpr ⟨not_equals_of_spellsSpan spells, rfl⟩]
      exact bind_eq_error.mpr (.inr ⟨_, readSpan_eq_ok_iff.mpr spells,
        bind_eq_error.mpr (.inl (readExpected_eq_error_iff.mpr (.inr ⟨_, numeral, large, rfl⟩)))⟩)

theorem identifierOrder_big {text : List Char} (noMark : text.getLast? ≠ some 'l') :
    identifierOrder text = (text, .big) := by
  rw [identifierOrder, Cut.beforeLast?_eq_none_iff.mpr noMark]

theorem dataOrder_unmarked {text : List Char} (notLittle : text.getLast? ≠ some 'l')
    (notBig : text.getLast? ≠ some 'b') : dataOrder text = (text, .big) := by
  rw [dataOrder, Cut.beforeLast?_eq_none_iff.mpr notLittle, Cut.beforeLast?_eq_none_iff.mpr notBig]
  rfl

theorem faulty_of_read {term : List Char} {fault : TermFault} (h : read term = .error fault) :
    Faulty term fault := by
  unfold read at h
  split at h
  · exact .matcher (readPattern_eq_error_iff.mp (bind_pure_eq_error.mp h))
  · exact .service (readPattern_eq_error_iff.mp (bind_pure_eq_error.mp h))
  · exact .power (readSpan_eq_error_iff.mp (bind_pure_eq_error.mp h))
  · rename_i text
    by_cases little : text.getLast? = some 'l'
    · obtain ⟨range, rfl⟩ := List.getLast?_eq_some_iff.mp little
      rw [identifierOrder_little] at h
      exact .identifierLittle (readSpan_eq_error_iff.mp (bind_pure_eq_error.mp h))
    · rw [identifierOrder_big little] at h
      exact .identifier little (readSpan_eq_error_iff.mp (bind_pure_eq_error.mp h))
  · rename_i text
    by_cases little : text.getLast? = some 'l'
    · obtain ⟨range, rfl⟩ := List.getLast?_eq_some_iff.mp little
      rw [dataOrder_little] at h
      exact .dataLittle (readSpan_eq_error_iff.mp (bind_pure_eq_error.mp h))
    by_cases big : text.getLast? = some 'b'
    · obtain ⟨range, rfl⟩ := List.getLast?_eq_some_iff.mp big
      rw [dataOrder_big] at h
      exact .dataBig (readSpan_eq_error_iff.mp (bind_pure_eq_error.mp h))
    · rw [dataOrder_unmarked little big] at h
      exact .data little big (readSpan_eq_error_iff.mp (bind_pure_eq_error.mp h))
  · rename_i matcher service power identifier data
    cases h
    refine .kind fun letter member text same => ?_
    simp only [letters, List.mem_cons, List.not_mem_nil, or_false] at member
    rcases member with rfl | rfl | rfl | rfl | rfl
    · exact matcher _ same
    · exact identifier _ same
    · exact power _ same
    · exact data _ same
    · exact service _ same

theorem read_of_faulty {term : List Char} {fault : TermFault} (h : Faulty term fault) :
    read term = .error fault := by
  cases h with
  | kind unknown =>
    unfold read
    split
    · exact absurd rfl (unknown 'm' (by decide) _)
    · exact absurd rfl (unknown 's' (by decide) _)
    · exact absurd rfl (unknown 'p' (by decide) _)
    · exact absurd rfl (unknown 'i' (by decide) _)
    · exact absurd rfl (unknown 'd' (by decide) _)
    · rfl
  | matcher fails => exact bind_pure_eq_error.mpr (readPattern_eq_error_iff.mpr fails)
  | identifier noMark fails =>
    rw [read, identifierOrder_big noMark]
    exact bind_pure_eq_error.mpr (readSpan_eq_error_iff.mpr fails)
  | identifierLittle fails =>
    rw [List.cons_append, List.cons_append, read, identifierOrder_little]
    exact bind_pure_eq_error.mpr (readSpan_eq_error_iff.mpr fails)
  | power fails => exact bind_pure_eq_error.mpr (readSpan_eq_error_iff.mpr fails)
  | data notLittle notBig fails =>
    rw [read, dataOrder_unmarked notLittle notBig]
    exact bind_pure_eq_error.mpr (readSpan_eq_error_iff.mpr fails)
  | dataBig fails =>
    rw [List.cons_append, List.cons_append, read, dataOrder_big]
    exact bind_pure_eq_error.mpr (readSpan_eq_error_iff.mpr fails)
  | dataLittle fails =>
    rw [List.cons_append, List.cons_append, read, dataOrder_little]
    exact bind_pure_eq_error.mpr (readSpan_eq_error_iff.mpr fails)
  | service fails => exact bind_pure_eq_error.mpr (readPattern_eq_error_iff.mpr fails)

/-- A term is refused with its fault. -/
theorem read_eq_error_iff {term : List Char} {fault : TermFault} :
    read term = .error fault ↔ Faulty term fault :=
  ⟨faulty_of_read, read_of_faulty⟩

end Field

end Proximity
