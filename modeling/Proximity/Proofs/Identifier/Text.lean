import Proximity.Identifier.Text
import Proximity.Proofs.Bytes.Hex

/-! Identifiers are read back from their text. Each size has one form of text, and the reader, which
tries the forms in an order of its own, takes no text of one form for another. -/

namespace Proximity

namespace Uuid

variable {digits rest text : List Char} {bytes : Bytes}

theorem group?_append {n : Nat} (length : digits.length = n) (all : ∀ c ∈ digits, Hex.isDigit c) :
    group? n (digits ++ rest) = some (digits, rest) := by
  subst length
  have enough : digits.length ≤ (digits ++ rest).length := by simp
  rw [group?, List.take_left, List.drop_left, if_pos ⟨enough, List.all_eq_true.mpr all⟩]

theorem groups?_dashed {groups : List (List Char)}
    (all : ∀ group ∈ groups, ∀ c ∈ group, Hex.isDigit c) :
    groups? (groups.map List.length) (groups.flatMap ('-' :: ·)) = some groups.flatten := by
  induction groups with
  | nil => rfl
  | cons group groups ih =>
    have later := ih fun other member => all other (List.mem_cons_of_mem _ member)
    rw [List.map_cons, List.flatMap_cons, List.cons_append, groups?, skipDash,
      group?_append rfl (all group List.mem_cons_self)]
    simp [later]

/-- The groups of a UUID's digits after the first. -/
def later (digits : List Char) : List (List Char) :=
  [(digits.drop 8).take 4, (digits.drop 12).take 4, (digits.drop 16).take 4, digits.drop 20]

theorem write_eq (bytes : Bytes) :
    write bytes = (Hex.write bytes).take 8 ++ (later (Hex.write bytes)).flatMap ('-' :: ·) := by
  simp [write, later]

theorem map_length_later (length : digits.length = 32) :
    (later digits).map List.length = laterGroups := by
  simp [later, laterGroups, length]

theorem take_append_later (digits : List Char) :
    digits.take 8 ++ (later digits).flatten = digits := by
  have join (m n : Nat) : (digits.drop m).take n ++ digits.drop (m + n) = digits.drop m := by
    rw [← List.drop_drop, List.take_append_drop]
  simp only [later, List.flatten_cons, List.flatten_nil, List.append_nil, join 16 4, join 12 4,
    join 8 4, List.take_append_drop]

theorem mem_of_mem_later {group : List Char} {c : Char} (member : group ∈ later digits)
    (inside : c ∈ group) : c ∈ digits := by
  have whole := take_append_later digits
  rw [← whole]
  exact List.mem_append_right _ (List.mem_flatten.mpr ⟨group, member, inside⟩)

/-- A UUID is read back as it was written. -/
theorem read?_write (length : bytes.length = 16) : read? (write bytes) = some bytes := by
  have nonempty : bytes ≠ [] := by
    rintro rfl
    cases length
  have count : (Hex.write bytes).length = 32 := by rw [Hex.length_write, length]
  have first : ((Hex.write bytes).take 8).length = 8 := by
    rw [List.length_take]
    omega
  have others : ∀ group ∈ later (Hex.write bytes), ∀ c ∈ group, Hex.isDigit c :=
    fun _ member _ inside => Hex.isDigit_of_mem_write (mem_of_mem_later member inside)
  rw [read?, write_eq, group?_append first fun _ member =>
    Hex.isDigit_of_mem_write (List.mem_of_mem_take member)]
  simp only [Option.bind_eq_bind, Option.bind_some]
  rw [← map_length_later count, groups?_dashed others, Option.bind_some, take_append_later,
    Hex.read?_write nonempty]

theorem read?_eq_none (short : text.length < 8) : read? text = none := by
  have cut : ¬ (8 ≤ text.length ∧ (text.take 8).all Hex.isDigit) := fun enough => by omega
  rw [read?, group?, if_neg cut]
  rfl

theorem not_x_mem_write (bytes : Bytes) : 'x' ∉ write bytes := by
  have digit : 'x' ∉ Hex.write bytes := fun member =>
    absurd (Hex.isDigit_of_mem_write member) (by decide)
  rw [write_eq, List.mem_append, List.mem_flatMap]
  rintro (first | ⟨group, member, inside⟩)
  · exact digit (List.mem_of_mem_take first)
  · rcases List.mem_cons.mp inside with dash | inside
    · cases dash
    · exact digit (mem_of_mem_later member inside)

end Uuid

theorem Decimal.length_write_le {n width : Nat} (positive : 0 < width) (small : n < 10 ^ width) :
    (write n).length ≤ width :=
  (Nat.length_toDigits_le_iff (by decide) positive).mpr small

namespace Identifier

variable {text : List Char} {id : Identifier} {bytes : Bytes}

theorem readBytes?_of_ne (other : ∀ digits, text ≠ '0' :: 'x' :: digits) :
    readBytes? text = (Uuid.read? text).or
      ((Decimal.read? text).bind fun n =>
        if n < UInt16.size then some (Bytes.ofNat 2 n) else none) := by
  unfold readBytes?
  split
  · exact absurd rfl (other _)
  · cases Uuid.read? text <;> rfl

theorem readBytes?_of_not_mem (plain : 'x' ∉ text) :
    readBytes? text = (Uuid.read? text).or
      ((Decimal.read? text).bind fun n =>
        if n < UInt16.size then some (Bytes.ofNat 2 n) else none) :=
  readBytes?_of_ne fun _ same => plain (by simp [same])

/-- A number of two bytes has too few digits for a UUID. -/
theorem readBytes?_decimal (length : bytes.length = 2) :
    readBytes? (Decimal.write (Bytes.value bytes)) = some bytes := by
  have small : Bytes.value bytes < UInt16.size := by
    have := Bytes.value_lt bytes
    rwa [length] at this
  have plain : 'x' ∉ Decimal.write (Bytes.value bytes) := fun member =>
    absurd (Decimal.isDigit_of_mem_write member) (by decide)
  have short : (Decimal.write (Bytes.value bytes)).length ≤ 5 :=
    Decimal.length_write_le (by decide) (small.trans (by decide))
  rw [readBytes?_of_not_mem plain, Uuid.read?_eq_none (by omega), Option.none_or,
    Decimal.read?_write, Option.bind_some, if_pos small, ← length, Bytes.ofNat_value]

theorem readBytes?_uuid (length : bytes.length = 16) :
    readBytes? (Uuid.write bytes) = some bytes := by
  rw [readBytes?_of_not_mem (Uuid.not_x_mem_write bytes), Uuid.read?_write length, Option.some_or]

theorem readBytes?_hexChars (id : Identifier) : readBytes? id.hexChars = some id.bytes :=
  Hex.read?_write id.bytes_ne_nil

theorem readBytes?_chars (id : Identifier) : readBytes? id.chars = some id.bytes := by
  unfold chars
  split
  · rename_i two
    exact readBytes?_decimal two
  · split
    · rename_i _ sixteen
      exact readBytes?_uuid sixteen
    · exact readBytes?_hexChars id

theorem parse_of_readBytes? (reads : readBytes? text = some id.bytes) :
    parse (String.ofList text) = .ok id := by
  simp [parse, reads, id.bytes_ne_nil]

/-- A text that is read back tells the identifier. -/
theorem injective_of_parse {write : Identifier → String} (back : ∀ id, parse (write id) = .ok id) :
    Function.Injective write := by
  intro x y same
  have := back x
  rw [same, back y] at this
  exact (Except.ok.inj this).symm

/-- Every identifier is read back from its text and from its hexadecimal text, so that neither is
the text of another identifier. -/
theorem parse_texts (id : Identifier) :
    parse id.text = .ok id ∧ parse id.hexText = .ok id ∧
      ∀ other : Identifier, (id.text = other.text ↔ id = other) ∧
        (id.hexText = other.hexText ↔ id = other) := by
  have text (id : Identifier) : parse id.text = .ok id := parse_of_readBytes? (readBytes?_chars id)
  have hexText (id : Identifier) : parse id.hexText = .ok id :=
    parse_of_readBytes? (readBytes?_hexChars id)
  exact ⟨text id, hexText id, fun other =>
    ⟨(injective_of_parse text).eq_iff, (injective_of_parse hexText).eq_iff⟩⟩

end Identifier

end Proximity
