import Proximity.Proofs.Identifier.Text
import Proximity.Proofs.Text.Decimal

/-! The forms of an identifier's text. A text is read exactly if it has one of the three forms, and
then as the bytes of the number that it spells. -/

namespace Proximity

namespace Uuid

variable {digits text rest : List Char} {bytes : Bytes}

/-- The piece is a group of digits, with or without a dash in front of it. -/
def Dashed (group piece : List Char) : Prop := piece = group ∨ piece = '-' :: group

/-- The text is a row of 32 digits, with or without a dash in front of each group after the
first. -/
def Groups (digits text : List Char) : Prop :=
  digits.length = 32 ∧
    ∃ pieces, List.Forall₂ Dashed (later digits) pieces ∧ text = digits.take 8 ++ pieces.flatten

theorem group?_eq_some {n : Nat} (h : group? n text = some (digits, rest)) :
    digits.length = n ∧ (∀ c ∈ digits, Hex.isDigit c) ∧ text = digits ++ rest := by
  unfold group? at h
  split at h
  · rename_i enough
    cases h
    exact ⟨List.length_take_of_le enough.1, List.all_eq_true.mp enough.2,
      (List.take_append_drop n text).symm⟩
  · cases h

theorem skipDash_append {group piece : List Char} (nonempty : group ≠ [])
    (all : ∀ c ∈ group, Hex.isDigit c) (dashed : Dashed group piece) :
    skipDash (piece ++ rest) = group ++ rest := by
  rcases dashed with rfl | rfl
  · obtain ⟨c, others, rfl⟩ := List.exists_cons_of_ne_nil nonempty
    unfold skipDash
    split
    · rename_i same
      rw [List.cons_append, List.cons.injEq] at same
      have digit := all c List.mem_cons_self
      rw [same.1] at digit
      cases digit
    · rfl
  · rfl

theorem exists_dashed_skipDash (text : List Char) :
    ∀ group rest, skipDash text = group ++ rest → ∃ piece, Dashed group piece ∧
      text = piece ++ rest := by
  intro group rest same
  unfold skipDash at same
  split at same
  · exact ⟨'-' :: group, .inr rfl, by rw [same, List.cons_append]⟩
  · exact ⟨group, .inl rfl, same⟩

theorem groups?_flatten {groups pieces : List (List Char)}
    (dashed : List.Forall₂ Dashed groups pieces)
    (digits : ∀ group ∈ groups, group ≠ [] ∧ ∀ c ∈ group, Hex.isDigit c) :
    groups? (groups.map List.length) pieces.flatten = some groups.flatten := by
  induction dashed with
  | nil => rfl
  | @cons group piece groups pieces first _ ih =>
    obtain ⟨⟨nonempty, all⟩, others⟩ := List.forall_mem_cons.mp digits
    rw [List.map_cons, List.flatten_cons, groups?, skipDash_append nonempty all first,
      group?_append rfl all]
    simp [ih others]

theorem groups?_eq_some {lengths : List Nat} (h : groups? lengths text = some digits) :
    ∃ groups pieces, groups.map List.length = lengths ∧ List.Forall₂ Dashed groups pieces ∧
      text = pieces.flatten ∧ digits = groups.flatten := by
  induction lengths generalizing text digits with
  | nil =>
    obtain ⟨empty, none⟩ := Option.ite_none_right_eq_some.mp h
    cases none
    exact ⟨[], [], rfl, .nil, List.isEmpty_iff.mp empty, rfl⟩
  | cons n lengths ih =>
    obtain ⟨⟨group, rest⟩, reads, h⟩ := Option.bind_eq_some_iff.mp h
    obtain ⟨others, readsOthers, h⟩ := Option.bind_eq_some_iff.mp h
    cases h
    obtain ⟨length, -, split⟩ := group?_eq_some reads
    obtain ⟨piece, dashed, rfl⟩ := exists_dashed_skipDash text group rest split
    obtain ⟨groups, pieces, lengths, allDashed, rfl, rfl⟩ := ih readsOthers
    exact ⟨group :: groups, piece :: pieces, by rw [List.map_cons, length, lengths],
      .cons dashed allDashed, rfl, rfl⟩

/-- A row of digits is cut into groups by their lengths alone. -/
theorem later_append {first : List Char} {groups : List (List Char)} (length : first.length = 8)
    (lengths : groups.map List.length = laterGroups) :
    later (first ++ groups.flatten) = groups := by
  have total : (first ++ groups.flatten).length = 32 := by
    rw [List.length_append, length, List.length_flatten, lengths]
    rfl
  have whole := take_append_later (first ++ groups.flatten)
  rw [List.take_left' length] at whole
  exact List.eq_iff_flatten_eq.mpr
    ⟨List.append_cancel_left whole, (map_length_later total).trans lengths.symm⟩

theorem read?_eq_some_iff :
    read? text = some bytes ↔ ∃ digits, Groups digits text ∧ Hex.read? digits = some bytes := by
  constructor
  · intro h
    obtain ⟨⟨first, rest⟩, reads, h⟩ := Option.bind_eq_some_iff.mp h
    obtain ⟨others, readsOthers, readsBytes⟩ := Option.bind_eq_some_iff.mp h
    obtain ⟨length, -, rfl⟩ := group?_eq_some reads
    obtain ⟨groups, pieces, lengths, dashed, rfl, rfl⟩ := groups?_eq_some readsOthers
    refine ⟨first ++ groups.flatten, ⟨?_, pieces, ?_, ?_⟩, readsBytes⟩
    · rw [List.length_append, length, List.length_flatten, lengths]
      rfl
    · rwa [later_append length lengths]
    · rw [List.take_left' length]
  · rintro ⟨digits, ⟨length, pieces, dashed, rfl⟩, reads⟩
    have all := (Hex.exists_numeral_iff.mp ⟨_, Hex.numeral_of_read? reads⟩).2
    have first : (digits.take 8).length = 8 := List.length_take_of_le (by omega)
    have lengths := map_length_later length
    have groups : ∀ group ∈ later digits, group ≠ [] ∧ ∀ c ∈ group, Hex.isDigit c := by
      refine fun group member => ⟨?_, fun c inside => all c (mem_of_mem_later member inside)⟩
      rintro rfl
      have empty : ([] : List Char).length ∈ laterGroups := lengths ▸ List.mem_map_of_mem member
      exact absurd empty (by decide)
    rw [read?, group?_append first fun c member => all c (List.mem_of_mem_take member)]
    simp only [Option.bind_eq_bind, Option.bind_some]
    rw [← lengths, groups?_flatten dashed groups, Option.bind_some, take_append_later, reads]

theorem mem_flatten_of_dashed {groups pieces : List (List Char)}
    (dashed : List.Forall₂ Dashed groups pieces) {c : Char} (member : c ∈ pieces.flatten) :
    c ∈ groups.flatten ∨ c = '-' := by
  induction dashed with
  | nil => cases member
  | cons first _ ih =>
    rw [List.flatten_cons, List.mem_append] at member ⊢
    rcases member with inside | others
    · rcases first with rfl | rfl
      · exact .inl (.inl inside)
      · rcases List.mem_cons.mp inside with dash | inside
        · exact .inr dash
        · exact .inl (.inl inside)
    · exact (ih others).imp_left .inr

/-- Digits and dashes are all that a UUID has. -/
theorem Groups.mem_or_dash (groups : Groups digits text) {c : Char} (member : c ∈ text) :
    c ∈ digits ∨ c = '-' := by
  obtain ⟨-, pieces, dashed, rfl⟩ := groups
  rcases List.mem_append.mp member with first | others
  · exact .inl (List.mem_of_mem_take first)
  · refine (mem_flatten_of_dashed dashed others).imp_left fun inside => ?_
    rw [← take_append_later digits]
    exact List.mem_append_right _ inside

/-- Digits without a dash have the form of a UUID if there are 32 of them. -/
theorem groups_self (length : digits.length = 32) : Groups digits digits :=
  ⟨length, later digits, List.forall₂_same.mpr fun _ _ => .inl rfl, (take_append_later digits).symm⟩

end Uuid

namespace Identifier

/-- The text spells a number in the given number of bytes. -/
inductive Spells : List Char → Nat → Nat → Prop
  | hex {digits : List Char} {n : Nat} :
    Hex.Numeral digits n → Spells ('0' :: 'x' :: digits) ((digits.length + 1) / 2) n
  | uuid {digits text : List Char} {n : Nat} :
    Uuid.Groups digits text → Hex.Numeral digits n → Spells text 16 n
  | decimal {text : List Char} {n : Nat} :
    (∀ digits m, Uuid.Groups digits text → ¬ Hex.Numeral digits m) →
      Decimal.Numeral text n → n ≤ 65535 → Spells text 2 n

variable {text : List Char} {bytes : Bytes} {size n : Nat}

theorem Spells.exists_bytes (spells : Spells text size n) :
    ∃ bytes : Bytes, bytes.length = size ∧ Bytes.value bytes = n := by
  cases spells with
  | hex numeral =>
    obtain ⟨bytes, reads, number⟩ := Hex.exists_read? numeral
    exact ⟨bytes, Hex.length_of_read? reads, number⟩
  | uuid groups numeral =>
    obtain ⟨bytes, reads, number⟩ := Hex.exists_read? numeral
    refine ⟨bytes, ?_, number⟩
    rw [Hex.length_of_read? reads, groups.1]
  | decimal _ _ small =>
    refine ⟨Bytes.ofNat 2 n, Bytes.length_ofNat 2 n, ?_⟩
    rw [Bytes.value_ofNat]
    omega

theorem Spells.size_ne_zero (spells : Spells text size n) : size ≠ 0 := by
  cases spells with
  | hex numeral =>
    have positive := List.length_pos_iff.mpr numeral.1
    omega
  | uuid _ _ => decide
  | decimal _ _ _ => decide

/-- The mark of a hexadecimal text stands in no text of the other forms. -/
theorem spells_hex_iff {digits : List Char} :
    Spells ('0' :: 'x' :: digits) size n ↔
      size = (digits.length + 1) / 2 ∧ Hex.Numeral digits n := by
  have mark : 'x' ∈ '0' :: 'x' :: digits := by simp
  constructor
  · generalize same : '0' :: 'x' :: digits = text at mark
    intro spells
    cases spells with
    | hex numeral =>
      cases same
      exact ⟨rfl, numeral⟩
    | uuid groups numeral =>
      rcases groups.mem_or_dash mark with digit | dash
      · exact absurd ((Hex.exists_numeral_iff.mp ⟨n, numeral⟩).2 _ digit) (by decide)
      · cases dash
    | decimal _ numeral _ => exact absurd (numeral.1.2 _ mark) (by decide)
  · rintro ⟨rfl, numeral⟩
    exact .hex numeral

theorem uuid_eq_some_iff :
    Uuid.read? text = some bytes ↔ bytes.length = 16 ∧
      ∃ digits, Uuid.Groups digits text ∧ Hex.Numeral digits (Bytes.value bytes) := by
  rw [Uuid.read?_eq_some_iff]
  constructor
  · rintro ⟨digits, groups, reads⟩
    obtain ⟨length, numeral⟩ := Hex.read?_eq_some_iff.mp reads
    rw [groups.1] at length
    exact ⟨length, digits, groups, numeral⟩
  · rintro ⟨length, digits, groups, numeral⟩
    exact ⟨digits, groups, Hex.read?_eq_some_iff.mpr ⟨by rw [length, groups.1], numeral⟩⟩

/-- A text is read as the bytes that spell its number. -/
theorem readBytes?_eq_some_iff :
    readBytes? text = some bytes ↔ Spells text bytes.length (Bytes.value bytes) := by
  by_cases marked : ∃ digits, text = '0' :: 'x' :: digits
  · obtain ⟨digits, rfl⟩ := marked
    rw [spells_hex_iff, ← Hex.read?_eq_some_iff]
    rfl
  · rw [readBytes?_of_ne fun digits same => marked ⟨digits, same⟩, Option.or_eq_some_iff]
    constructor
    · rintro (uuid | ⟨noUuid, decimal⟩)
      · obtain ⟨length, digits, groups, numeral⟩ := uuid_eq_some_iff.mp uuid
        rw [length]
        exact .uuid groups numeral
      · obtain ⟨n, reads, bounded⟩ := Option.bind_eq_some_iff.mp decimal
        obtain ⟨small, same⟩ := Option.ite_none_right_eq_some.mp bounded
        cases same
        rw [Bytes.length_ofNat, Bytes.value_ofNat, Nat.mod_eq_of_lt (show n < 256 ^ 2 from small)]
        refine .decimal (fun digits m groups numeral => ?_) (Decimal.read?_eq_some_iff.mp reads)
          (Nat.le_of_lt_succ small)
        obtain ⟨bytes, readsUuid, -⟩ := Hex.exists_read? numeral
        cases noUuid.symm.trans (Uuid.read?_eq_some_iff.mpr ⟨digits, groups, readsUuid⟩)
    · generalize length : bytes.length = size
      generalize number : Bytes.value bytes = n
      intro spells
      cases spells with
      | hex _ => exact absurd ⟨_, rfl⟩ marked
      | @uuid digits _ _ groups numeral =>
        exact .inl (uuid_eq_some_iff.mpr ⟨length, digits, groups, number ▸ numeral⟩)
      | decimal other numeral small =>
        refine .inr ⟨?_, ?_⟩
        · refine Option.eq_none_iff_forall_ne_some.mpr fun uuid reads => ?_
          obtain ⟨-, digits, groups, spelled⟩ := uuid_eq_some_iff.mp reads
          exact other digits _ groups spelled
        · rw [Decimal.read?_eq_some_iff.mpr numeral, Option.bind_some,
            if_pos (Nat.lt_succ_of_le small), ← length, ← number, Bytes.ofNat_value]

theorem parse_eq_ok_iff {text : String} {id : Identifier} :
    parse text = .ok id ↔ Spells text.toList id.size (Bytes.value id.bytes) := by
  rw [size, ← readBytes?_eq_some_iff, parse]
  split
  · rename_i unread
    simp [unread]
  · rename_i bytes reads
    rw [reads, Option.some_inj]
    split
    · rw [Except.ok.injEq, Identifier.mk.injEq]
    · rename_i empty
      rw [not_not] at empty
      simp [empty, eq_comm, id.bytes_ne_nil]

theorem eq_of_parse_eq_error {text : String} {e : IdentifierSyntaxError}
    (h : parse text = .error e) : e = ⟨text⟩ := by
  unfold parse at h
  split at h
  · cases h
    rfl
  · split at h
    · cases h
    · cases h
      rfl

theorem Spells.exists_parse {text : String} (spells : Spells text.toList size n) :
    ∃ id, parse text = .ok id ∧ id.size = size ∧ Bytes.value id.bytes = n := by
  obtain ⟨bytes, length, number⟩ := spells.exists_bytes
  have nonempty : bytes ≠ [] := by
    rintro rfl
    exact spells.size_ne_zero length.symm
  refine ⟨⟨bytes, nonempty⟩, parse_eq_ok_iff.mpr ?_, length, number⟩
  rwa [Identifier.size, length, number]

/-- A text that has one of the three forms is read as the identifier that it spells, and every other
text is an error that names it. In particular 32 decimal digits are a UUID. -/
theorem parse_reads_forms (text : String) :
    (∀ id, parse text = .ok id ↔ Spells text.toList id.size (Bytes.value id.bytes)) ∧
    (∀ e, parse text = .error e ↔ e = ⟨text⟩ ∧ ∀ size n, ¬ Spells text.toList size n) ∧
    (text.length = 32 ∧ (∀ c ∈ text.toList, c.isDigit) → ∃ id, parse text = .ok id ∧
      id.size = 16 ∧ Hex.Numeral text.toList (Bytes.value id.bytes)) := by
  refine ⟨fun id => parse_eq_ok_iff, fun e => ⟨fun fails => ?_, ?_⟩, ?_⟩
  · refine ⟨eq_of_parse_eq_error fails, fun size n spells => ?_⟩
    obtain ⟨id, reads, -⟩ := spells.exists_parse
    cases fails.symm.trans reads
  · rintro ⟨rfl, none⟩
    cases result : parse text with
    | error e => rw [eq_of_parse_eq_error result]
    | ok id => exact absurd (parse_eq_ok_iff.mp result) (none _ _)
  · rintro ⟨length, decimal⟩
    have digits : text.toList ≠ [] ∧ ∀ c ∈ text.toList, Hex.isDigit c :=
      ⟨fun empty => by simp [String.length, empty] at length,
        fun c member => Hex.isDigit_of_isDigit (decimal c member)⟩
    obtain ⟨n, numeral⟩ := Hex.exists_numeral_iff.mpr digits
    obtain ⟨id, reads, sixteen, rfl⟩ :=
      (Spells.uuid (Uuid.groups_self length) numeral).exists_parse
    exact ⟨id, reads, sixteen, numeral⟩

end Identifier

end Proximity
