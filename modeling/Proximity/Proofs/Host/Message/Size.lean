import Proximity.Host.Stream
import Proximity.Proofs.Host.Message
import Proximity.Proofs.Identifier.Text
import Mathlib.Algebra.Order.BigOperators.Group.List

/-! How long a message gets. The bytes of an object are counted member by member. Every part of a
report has a longest text, and with all of them at their longest the line still fits the buffer. -/

namespace Proximity

theorem Hex.toNat_lt_of_isDigit {c : Char} (digit : Hex.isDigit c) : c.toNat < 128 := by
  obtain ⟨b, reads⟩ := Option.isSome_iff_exists.mp digit
  exact Hex.toNat_lt_of_digitValue? reads

namespace Json

open Utf8

/-- No character of the text has to be escaped. -/
def Plain (text : List Char) : Prop := ∀ c ∈ text, ¬ Special c

instance (text : List Char) : Decidable (Plain text) := List.decidableBAll _ text

/-- The bytes that members take in an object, each with a comma. -/
def weight (members : List (String × Value)) : Nat :=
  (members.map fun member => size (writeMember member.1 member.2) + 1).sum

theorem size_quote {s : String} (plain : Plain s.toList) : size (quote s) = size s.toList + 2 := by
  have same : s.toList.flatMap escape = s.toList := by
    rw [List.flatMap_congr fun c member => escape_of_not_special (plain c member)]
    exact List.flatMap_singleton' _
  have mark : size ['"'] = 1 := rfl
  rw [quote, same, size_append, size_cons, mark]
  omega

theorem size_bracket_le {left right : Char} (ascii : left.toNat < 128) (ascii' : right.toNat < 128)
    (items : List (List Char)) :
    size (bracket left right items) ≤ 2 + (items.map fun item => size item + 1).sum := by
  have comma : size [','] = 1 := rfl
  have inside : size ([','].intercalate items) ≤ (items.map fun item => size item + 1).sum := by
    cases items with
    | nil => exact Nat.zero_le _
    | cons item items =>
      have later : size (items.flatMap (',' :: ·)) = (items.map fun item => size item + 1).sum := by
        induction items with
        | nil => rfl
        | cons item items ih =>
          rw [List.flatMap_cons, size_append, ih, size_cons, comma, List.map_cons, List.sum_cons,
            Nat.add_comm 1]
      rw [intercalate_cons, size_append, later, List.map_cons, List.sum_cons]
      omega
  have first : size [left] = 1 := by rw [size_of_ascii (by simpa using ascii)]; rfl
  have last : size [right] = 1 := by rw [size_of_ascii (by simpa using ascii')]; rfl
  rw [bracket, size_append, size_cons, first, last]
  omega

theorem size_write_le (members : List (String × Value)) :
    size (write members) ≤ 2 + weight members := by
  have counted := @size_bracket_le '\x7b' '\x7d' (by decide) (by decide)
    (members.map fun member => writeMember member.1 member.2)
  rw [List.map_map] at counted
  exact counted

theorem weight_append (front back : List (String × Value)) :
    weight (front ++ back) = weight front + weight back := by
  simp only [weight, List.map_append, List.sum_append]

theorem size_writeMember (name : String) (value : Value) :
    size (writeMember name value) = size (quote name) + 1 + size value.write := by
  have colon : size [':'] = 1 := rfl
  rw [writeMember, size_append, size_cons, colon, Nat.add_assoc]

theorem size_natural_le {n width : Nat} (positive : 0 < width) (small : n < 10 ^ width) :
    size (Value.integer n).write ≤ width := by
  have ascii : ∀ c ∈ Decimal.write n, c.toNat < 128 := fun c member =>
    Hex.toNat_lt_of_isDigit (Hex.isDigit_of_isDigit (Decimal.isDigit_of_mem_write member))
  exact (size_of_ascii ascii).trans_le (Decimal.length_write_le positive small)

/-- A minus sign takes one more byte. -/
theorem size_integer_le {n : Int} {width : Nat} (positive : 0 < width)
    (small : n.natAbs < 10 ^ width) : size (Value.integer n).write ≤ width + 1 := by
  cases n with
  | ofNat n => exact Nat.le_succ_of_le (size_natural_le positive small)
  | negSucc n =>
    have minus : size ['-'] = 1 := rfl
    have digits : size (Decimal.write (n + 1)) ≤ width := size_natural_le positive small
    have written : (Value.integer (.negSucc n)).write = '-' :: Decimal.write (n + 1) := rfl
    rw [written, size_cons, minus]
    omega

theorem weight_nil : weight [] = 0 := rfl

theorem weight_cons (name : String) (value : Value) (members : List (String × Value)) :
    weight ((name, value) :: members) =
      size (quote name) + size value.write + 2 + weight members := by
  simp only [weight, List.map_cons, List.sum_cons, size_writeMember]
  omega

end Json

open Json

namespace Identifier

variable {id : Identifier} {c : Char}

theorem mem_chars (member : c ∈ id.chars) : Hex.isDigit c ∨ c = '-' ∨ c = 'x' := by
  unfold chars at member
  split at member
  · exact Or.inl (Hex.isDigit_of_isDigit (Decimal.isDigit_of_mem_write member))
  split at member
  · rw [Uuid.write_eq, List.mem_append, List.mem_flatMap] at member
    rcases member with first | ⟨group, later, inside⟩
    · exact Or.inl (Hex.isDigit_of_mem_write (List.mem_of_mem_take first))
    · rcases List.mem_cons.mp inside with dash | digit
      · exact Or.inr (Or.inl dash)
      · exact Or.inl (Hex.isDigit_of_mem_write (Uuid.mem_of_mem_later later digit))
  · rw [hexChars, List.mem_cons, List.mem_cons] at member
    rcases member with rfl | mark | digit
    · exact Or.inl rfl
    · exact Or.inr (Or.inr mark)
    · exact Or.inl (Hex.isDigit_of_mem_write digit)

theorem plain_chars (id : Identifier) : Plain id.chars := by
  intro c member special
  have table : specials.all fun c => !(Hex.isDigit c || c = '-' || c = 'x') := by decide +kernel
  have other := special.of_all table
  rcases mem_chars member with digit | rfl | rfl
  · simp [digit] at other
  · cases other
  · cases other

theorem size_chars (id : Identifier) : Utf8.size id.chars = id.chars.length := by
  refine Utf8.size_of_ascii fun c member => ?_
  rcases mem_chars member with digit | rfl | rfl
  · exact Hex.toNat_lt_of_isDigit digit
  · decide
  · decide

/-- The text of two or sixteen bytes is shorter than that of one byte more, but no text of more than
32 bytes is short. -/
theorem size_chars_le_iff (id : Identifier) :
    Utf8.size id.chars ≤ BeaconReport.maxIdSize ↔ id.size ≤ 32 := by
  rw [size_chars, chars]
  by_cases two : id.size = 2
  · have small : Bytes.value id.bytes < 10 ^ 5 := by
      have := Bytes.value_lt id.bytes
      rw [← size, two] at this
      omega
    have short := Decimal.length_write_le (by decide) small
    rw [if_pos two]
    simp only [BeaconReport.maxIdSize]
    omega
  by_cases sixteen : id.size = 16
  · have length : (Uuid.write id.bytes).length = 36 := by
      have digits : (Hex.write id.bytes).length = 32 := by rw [Hex.length_write, ← size, sixteen]
      simp [Uuid.write, digits]
    rw [if_neg two, if_pos sixteen, length, sixteen]
    decide
  · rw [if_neg two, if_neg sixteen, hexChars, List.length_cons, List.length_cons, Hex.length_write,
      ← size]
    simp only [BeaconReport.maxIdSize]
    omega

end Identifier

theorem Vendor.short_of_name? {code : UInt16} {vendor : String} (named : name? code = some vendor) :
    Plain vendor.toList ∧ Utf8.size vendor.toList ≤ 20 := by
  have table : ∀ entry ∈ known, Plain entry.2.toList ∧ Utf8.size entry.2.toList ≤ 20 := by
    decide +kernel
  obtain ⟨before, after, split, -⟩ := List.lookup_eq_some_iff.mp named
  exact table (code, vendor) (by simp [split])

namespace BeaconReport

/-- The texts of a report are as short as they have to be, and nothing in them has to be escaped. -/
structure Fits (report : BeaconReport) : Prop where
  ids_length : report.ids.length ≤ maxIds
  ids : ∀ s ∈ report.ids, Plain s.toList ∧ Utf8.size s.toList ≤ maxIdSize
  mac : ∀ s ∈ report.mac, Plain s.toList ∧ Utf8.size s.toList ≤ maxAddressSize
  name : ∀ s ∈ report.name, Plain s.toList ∧ Utf8.size s.toList ≤ maxNameSize
  vendor : ∀ s ∈ report.vendor, Plain s.toList ∧ Utf8.size s.toList ≤ 20

variable {report : BeaconReport} {beacon : Beacon} {time : UInt32}

theorem weight_optional_le {α : Type} {name : String} {value : Option α} {write : α → Value}
    {most : Nat} (each : ∀ a ∈ value, Utf8.size (write a).write ≤ most) :
    weight (Message.optional name value write) ≤ Utf8.size (quote name) + most + 2 := by
  cases value with
  | none => exact Nat.zero_le _
  | some a =>
    have short := each a rfl
    have alone : Message.optional name (some a) write = [(name, write a)] := rfl
    rw [alone, weight_cons, weight_nil]
    omega

theorem size_text_le {s : String} {most : Nat}
    (short : Plain s.toList ∧ Utf8.size s.toList ≤ most) :
    Utf8.size (Value.text s).write ≤ most + 2 := by
  have quoted : Utf8.size (Value.text s).write = Utf8.size s.toList + 2 := size_quote short.1
  have := short.2
  omega

theorem Fits.size_ids_le (fits : report.Fits) : Utf8.size (Value.texts report.ids).write ≤ 278 := by
  have counted : Utf8.size (Value.texts report.ids).write ≤ _ :=
    @size_bracket_le '[' ']' (by decide) (by decide) (report.ids.map quote)
  have each : ∀ n ∈ (report.ids.map quote).map fun item => Utf8.size item + 1, n ≤ 69 := by
    simp only [List.map_map, List.forall_mem_map]
    intro s member
    exact Nat.succ_le_succ (size_text_le (fits.ids s member))
  have total : List.sum _ ≤ _ * 69 := List.sum_le_card_nsmul _ 69 each
  have few : report.ids.length ≤ 4 := fits.ids_length
  rw [List.length_map, List.length_map] at total
  omega

theorem size_int16_le (n : Int16) : Utf8.size (Value.integer n.toInt).write ≤ 6 :=
  size_integer_le (by decide) (by have := n.toInt_lt; have := n.le_toInt; omega)

/-- The longest report: four identifiers of 66 characters each in quotes, the longest address and
name, and the longest numbers. -/
theorem Fits.weight_le (fits : report.Fits) : weight (Message.beacon report).members ≤ 496 := by
  have ids := fits.size_ids_le
  have mac := @weight_optional_le _ "mac" report.mac .text _ fun s member =>
    size_text_le (fits.mac s member)
  have name := @weight_optional_le _ "name" report.name .text _ fun s member =>
    size_text_le (fits.name s member)
  have vendor := @weight_optional_le _ "vendor" report.vendor .text _ fun s member =>
    size_text_le (fits.vendor s member)
  have rssi : Utf8.size (Value.integer report.rssi.toInt).write ≤ 6 := size_int16_le _
  have average := @weight_optional_le _ "avg" report.average (.integer ·.toInt) _ fun n _ =>
    size_int16_le n
  have txPower : Utf8.size (Value.integer report.txPower.toInt).write ≤ 4 :=
    size_integer_le (by decide) (by
      have := report.txPower.toInt_lt
      have := report.txPower.le_toInt
      omega)
  have manufacturer : Utf8.size (Value.integer report.manufacturer.toNat).write ≤ 5 :=
    size_natural_le (by decide) (by have := report.manufacturer.toNat_lt; omega)
  have typeCode : Utf8.size (Value.integer report.typeCode.toNat).write ≤ 20 :=
    size_natural_le (by decide) (by have := report.typeCode.toNat_lt; omega)
  have time : Utf8.size (Value.integer report.time.toNat).write ≤ 10 :=
    size_natural_le (by decide) (by have := report.time.toNat_lt; omega)
  have kind : Utf8.size (Value.text "beacon").write = 8 := by decide +kernel
  have names : Utf8.size (quote "type") = 6 ∧ Utf8.size (quote "ids") = 5 ∧
      Utf8.size (quote "mac") = 5 ∧ Utf8.size (quote "name") = 6 ∧ Utf8.size (quote "rssi") = 6 ∧
      Utf8.size (quote "avg") = 5 ∧ Utf8.size (quote "tx") = 4 ∧ Utf8.size (quote "mfr") = 5 ∧
      Utf8.size (quote "vendor") = 8 ∧ Utf8.size (quote "code") = 6 ∧
      Utf8.size (quote "ts") = 4 := by
    decide +kernel
  simp only [maxAddressSize, maxNameSize] at mac name
  simp only [Message.members, weight_append, weight_cons, weight_nil]
  omega

theorem Fits.exists_line (fits : report.Fits) :
    ∃ line, Message.line? Message.maxLength (.beacon report) = some line ∧
      ∀ torn (buffer : Buffer Message.maxLength),
        ((Message.beacon report).writeInto torn buffer).2 = some line.length := by
  have room : (Message.beacon report).json.length + 1 ≤ Message.maxLength := by
    have written : (Message.beacon report).json.length ≤ 2 + weight _ := size_write_le _
    have := fits.weight_le
    simp only [Message.maxLength]
    omega
  refine ⟨_, Message.line?_eq_some_iff.mpr ⟨room, rfl⟩, fun torn buffer => ?_⟩
  rw [Message.writeInto]
  simp only [dif_pos (Nat.le_of_succ_le room), dif_pos room, List.length_append,
    List.length_singleton]

theorem idTexts?_eq : idTexts? beacon =
    if beacon.ids.length ≤ 4 ∧ ∀ id ∈ beacon.ids, id.size ≤ 32 then
      some (beacon.ids.map Identifier.text)
    else none := by
  simp only [idTexts?, maxIds, Identifier.size_chars_le_iff]

theorem mem_bounded {most : Nat} {text : Option String} {s : String} :
    s ∈ bounded most text ↔ s ∈ text ∧ Utf8.size s.toList ≤ most := by
  simp [bounded, Option.mem_def, Option.filter_eq_some_iff]

theorem fits_of_ofBeacon? (sent : ofBeacon? beacon time = some report)
    (address : ∀ s ∈ beacon.address, Plain s.toList) (name : ∀ s ∈ beacon.name, Plain s.toList) :
    report.Fits := by
  obtain ⟨ids, texts, rfl⟩ : ∃ ids, idTexts? beacon = some ids ∧ _ = report := by
    simpa [ofBeacon?, Option.bind_eq_some_iff] using sent
  rw [idTexts?_eq, Option.ite_none_right_eq_some, Option.some_inj] at texts
  obtain ⟨⟨few, short⟩, rfl⟩ := texts
  constructor
  · exact (List.length_map _).trans_le few
  · simp only [List.forall_mem_map]
    intro id member
    exact ⟨by simpa [Identifier.text] using id.plain_chars,
      by simpa [Identifier.text] using id.size_chars_le_iff.mpr (short id member)⟩
  · intro s kept
    obtain ⟨given, short⟩ := mem_bounded.mp kept
    exact ⟨address s given, short⟩
  · intro s kept
    obtain ⟨given, short⟩ := mem_bounded.mp kept
    exact ⟨name s given, short⟩
  · exact fun s named => Vendor.short_of_name? named

/-- A beacon can be reported exactly if it has at most four identifiers of at most 32 bytes each.
Unless its address or its name has characters that must be escaped, the line of the report then fits
the buffer that lines are written into, whatever is in the buffer. -/
theorem line_fits_buffer (beacon : Beacon) (time : UInt32) :
    ((ofBeacon? beacon time).isSome ↔
        beacon.ids.length ≤ 4 ∧ ∀ id ∈ beacon.ids, id.size ≤ 32) ∧
      ((∀ s ∈ beacon.address, Plain s.toList) → (∀ s ∈ beacon.name, Plain s.toList) →
        ∀ report, ofBeacon? beacon time = some report →
          ∃ line, Message.line? Message.maxLength (.beacon report) = some line ∧
            ∀ torn (buffer : Buffer Message.maxLength),
              ((Message.beacon report).writeInto torn buffer).2 = some line.length) := by
  refine ⟨?_, fun address name report sent => (fits_of_ofBeacon? sent address name).exists_line⟩
  have texts := @idTexts?_eq beacon
  by_cases few : beacon.ids.length ≤ 4 ∧ ∀ id ∈ beacon.ids, id.size ≤ 32
  · rw [if_pos few] at texts
    exact iff_of_true (by simp [ofBeacon?, texts]) few
  · rw [if_neg few] at texts
    exact iff_of_false (by simp [ofBeacon?, texts]) few

/-- A beacon with the longest texts that a report has room for. -/
def longest : Beacon where
  ids := List.replicate 4 ⟨List.replicate 32 255, by decide⟩
  ids_ne_nil := by decide
  txPower := -128
  rssi := -32768
  typeCode := 18446744073709551615
  address := some "AA:BB:CC:DD:EE:FF;"
  name := some "a name that is thirty-three bytes"

theorem line_fits_buffer_longest :
    ∃ report line, ofBeacon? longest 4294967295 = some report ∧
      Message.line? Message.maxLength (.beacon report) = some line := by
  obtain ⟨reported, fits⟩ := line_fits_buffer longest 4294967295
  obtain ⟨report, sent⟩ := Option.isSome_iff_exists.mp (reported.mpr (by decide))
  obtain ⟨line, written, -⟩ := fits (by decide +kernel) (by decide +kernel) report sent
  exact ⟨report, line, sent, written⟩

end BeaconReport

end Proximity
