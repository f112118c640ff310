import Proximity.Proofs.Layout.Language
import Proximity.Proofs.Layout.Payload
import Proximity.Proofs.Layout.Positions

/-! What a layout says of the text that it was compiled from: which fields it sets apart, how far
they reach, how many there are, and which numbers the text gives for the bytes that they expect. -/

namespace Proximity

theorem SpellsPattern.value {text : List Char} {pattern : Pattern} {n : Nat}
    (spells : SpellsPattern text pattern n) : Bytes.value pattern.expected = n := by
  obtain ⟨-, -, -, -, -, small, same⟩ := spells
  rw [same, Bytes.value_ofNat, Nat.mod_eq_of_lt small]

/-- A term starts with the letter of the field that it declares. -/
theorem Field.Declares.head? {term : List Char} {field : Field} (declares : Declares term field) :
    term.head? = some field.letter := by
  cases declares <;> rfl

namespace Layout

/-- The digits stand behind an equals sign in a term of the source that starts with the letter. -/
def Expects (source : String) (letter : Char) (digits : List Char) : Prop :=
  ∃ terms range, Lists source terms ∧ letter :: ':' :: (range ++ '=' :: digits) ∈ terms

/-- The terms with the letter give only one row of digits, which spells the number. -/
def Names (source : String) (letter : Char) (n : Nat) : Prop :=
  ∃ digits, (∀ other, Expects source letter other ↔ other = digits) ∧ Hex.Numeral digits n

/-- What can be asked of the layout agrees with the text. -/
structure Describes (layout : Layout) (source : String) : Prop where
  positions : ∃ positions, Positions.compile source = .ok positions ∧ positions.Select layout
  matcher : layout.fields.filter (·.letter = 'm') = [.matcher layout.matcher]
  power : layout.fields.filter (·.letter = 'p') = [.power layout.power]
  service : layout.fields.filter (·.letter = 's') = (layout.service.map .service).toList
  width : ∀ field ∈ layout.fields, 1 ≤ field.place.span.width ∧
    field.place.span.first + field.place.span.width = field.place.span.last + 1
  last_le : ∀ field ∈ layout.fields, field.place.span.last ≤ layout.lastOffset
  lastOffset_le : layout.lastOffset ≤ maxOffset
  attained : ∃ field ∈ layout.fields, field.place.span.last = layout.lastOffset
  count : layout.identifiers.length + layout.dataFields.length + 2 +
    layout.service.toList.length = source.toList.count ',' + 1
  typeCode : ∃ n, Names source 'm' n ∧ layout.typeCode.toNat = n % 2 ^ 64
  serviceUuid_eq_none : layout.serviceUuid = none ↔ ∀ digits, ¬ Expects source 's' digits
  serviceUuid : ∀ uuid ∈ layout.serviceUuid, Names source 's' uuid.toNat

theorem map_filterMap {α : Type} (select : Field → Option α) (make : α → Field) {letter : Char}
    (fields : List Field)
    (same : ∀ field, (select field).map make = Option.guard (·.letter = letter) field) :
    (fields.filterMap select).map make = fields.filter (·.letter = letter) := by
  rw [List.map_filterMap, ← List.filterMap_eq_filter]
  congr 1
  funext field
  exact same field

theorem countP_data (fields : List Field) :
    fields.countP (·.letter = 'd') = (fields.filterMap Field.data?).length :=
  countP_letter (fun field => by cases field <;> rfl) fields

/-- Each field is of one of five kinds. -/
theorem length_eq_add_countP (fields : List Field) :
    fields.length = fields.countP (·.letter = 'i') + fields.countP (·.letter = 'd') +
      fields.countP (·.letter = 'm') + fields.countP (·.letter = 'p') +
        fields.countP (·.letter = 's') := by
  induction fields with
  | nil => rfl
  | cons field fields ih =>
    have one : (if field.letter = 'i' then 1 else 0) + (if field.letter = 'd' then 1 else 0) +
        (if field.letter = 'm' then 1 else 0) + (if field.letter = 'p' then 1 else 0) +
          (if field.letter = 's' then 1 else 0) = 1 := by
      cases field <;> rfl
    simp only [List.length_cons, List.countP_cons, decide_eq_true_eq]
    omega

theorem Lists.length {source : String} {terms : List (List Char)} (lists : Lists source terms) :
    terms.length = source.toList.count ',' + 1 := by
  rw [← lists_iff.mp lists, Layout.terms, List.length_map, Cut.length_splitOn]

namespace Spells

variable {source : String} {fields : List Field} {letter : Char}

/-- The terms that start with a letter declare the fields of the kind, in order. -/
theorem filter (spells : Spells source fields) (letter : Char) :
    ∃ terms, Lists source terms ∧
      List.Forall₂ Field.Declares (terms.filter (·.head? = some letter))
        (fields.filter (·.letter = letter)) := by
  obtain ⟨terms, lists, declare⟩ := spells
  refine ⟨terms, lists, List.rel_filter (fun term field declares => ?_) declare⟩
  simp [declares.head?]

theorem not_expects (spells : Spells source fields)
    (none : fields.filter (·.letter = letter) = []) (digits : List Char) :
    ¬ Expects source letter digits := by
  rintro ⟨others, range, lists', member⟩
  obtain ⟨terms, lists, declare⟩ := spells.filter letter
  obtain rfl := lists.unique lists'
  rw [none, List.forall₂_nil_right_iff, List.filter_eq_nil_iff] at declare
  exact declare _ member (by simp)

/-- The expected bytes of a kind's only field are those of the number that the text names. -/
theorem names (spells : Spells source fields) {field : Field} {pattern : Pattern}
    (only : fields.filter (·.letter = letter) = [field])
    (declared : ∀ {term}, Field.Declares term field →
      ∃ text n, term = letter :: ':' :: text ∧ SpellsPattern text pattern n) :
    Names source letter (Bytes.value pattern.expected) := by
  obtain ⟨terms, lists, declare⟩ := spells.filter letter
  rw [only, List.forall₂_cons_right_iff] at declare
  obtain ⟨term, rest, declares, last, unique⟩ := declare
  rw [List.forall₂_nil_right_iff] at last
  subst last
  obtain ⟨text, n, rfl, spellsPattern⟩ := declared declares
  have value := spellsPattern.value
  obtain ⟨range, digits, rfl, spellsSpan, numeral, -, -⟩ := spellsPattern
  refine ⟨digits, fun other => ⟨?_, ?_⟩, value ▸ numeral⟩
  · rintro ⟨others, range', lists', member⟩
    obtain rfl := lists.unique lists'
    have among : _ ∈ terms.filter (·.head? = some letter) :=
      List.mem_filter.mpr ⟨member, by simp⟩
    rw [unique, List.mem_singleton, List.cons_inj_right, List.cons_inj_right, eq_comm,
      List.append_cons_inj_of_notMem (Field.not_equals_of_spellsSpan spellsSpan)
        (numeral.not_mem rfl)] at among
    exact among.2.2.symm
  · rintro rfl
    have among : _ ∈ terms.filter _ := unique ▸ List.mem_singleton_self _
    exact ⟨terms, range, lists, (List.mem_filter.mp among).1⟩

end Spells

namespace WellFormed

variable {layout : Layout} (wf : layout.WellFormed)

include wf

theorem filter_matcher : layout.fields.filter (·.letter = 'm') = [.matcher layout.matcher] := by
  rw [← map_filterMap Field.matcher? .matcher _ fun field => by cases field <;> rfl, wf.matcher]
  rfl

theorem filter_power : layout.fields.filter (·.letter = 'p') = [.power layout.power] := by
  rw [← map_filterMap Field.power? .power _ fun field => by cases field <;> rfl, wf.power]
  rfl

theorem filter_service :
    layout.fields.filter (·.letter = 's') = (layout.service.map .service).toList := by
  rw [← map_filterMap Field.service? .service _ fun field => by cases field <;> rfl, wf.service]
  cases layout.service <;> rfl

theorem fields_ne_nil : layout.fields ≠ [] := List.ne_nil_of_mem wf.matcher_mem

theorem lastOffset_le : layout.lastOffset ≤ maxOffset :=
  Layout.lastOffset_le fun field member => (wf.fields field member).last_le

theorem length_fields : layout.fields.length =
    layout.identifiers.length + layout.dataFields.length + 2 + layout.service.toList.length := by
  rw [length_eq_add_countP, countP_identifier, countP_data, countP_matcher, countP_power,
    countP_service, wf.matcher, wf.power, wf.service]
  rfl

end WellFormed

section Compiled

variable {source : String} {layout : Layout} (compiled : compile source = .ok layout)

include compiled

theorem names_matcher : Names source 'm' (Bytes.value layout.matcher.expected) := by
  refine (spells_of_compile compiled).names (wellFormed_of_compile compiled).filter_matcher
    fun declares => ?_
  cases declares with
  | matcher spells => exact ⟨_, _, rfl, spells⟩

theorem names_service {pattern : Pattern} (present : layout.service = some pattern) :
    Names source 's' (Bytes.value pattern.expected) := by
  have only := (wellFormed_of_compile compiled).filter_service
  rw [present] at only
  refine (spells_of_compile compiled).names only fun declares => ?_
  cases declares with
  | service spells _ => exact ⟨_, _, rfl, spells⟩

/-- The number of a service UUID is small enough for the word and for the half of it that count. -/
theorem toNat_service {pattern : Pattern} (present : layout.service = some pattern) :
    (Bytes.word pattern.expected).toUInt32.toNat = Bytes.value pattern.expected := by
  have small := value_service_lt compiled present
  rw [UInt64.toNat_toUInt32, Bytes.toNat_word]
  omega

theorem service_eq_none_iff : layout.service = none ↔ ∀ digits, ¬ Expects source 's' digits := by
  constructor
  · intro absent digits
    have only := (wellFormed_of_compile compiled).filter_service
    rw [absent] at only
    exact (spells_of_compile compiled).not_expects only digits
  · intro unnamed
    cases present : layout.service with
    | none => rfl
    | some pattern =>
      obtain ⟨digits, only, -⟩ := names_service compiled present
      exact absurd ((only digits).mpr rfl) (unnamed digits)

/-- What can be asked of a layout agrees with the text that it was compiled from. -/
theorem describes_of_compile : layout.Describes source := by
  have wf := wellFormed_of_compile compiled
  constructor
  case positions => exact (Positions.compile_matched source).exists_of_ok compiled
  case matcher => exact wf.filter_matcher
  case power => exact wf.filter_power
  case service => exact wf.filter_service
  case width =>
    exact fun field _ => ⟨field.place.span.width_pos, field.place.span.first_add_width⟩
  case last_le => exact fun field => le_lastOffset
  case lastOffset_le => exact wf.lastOffset_le
  case attained => exact exists_last_eq_lastOffset wf.fields_ne_nil
  case count =>
    obtain ⟨terms, lists, declare⟩ := spells_of_compile compiled
    rw [← wf.length_fields, ← declare.length_eq, lists.length]
  case typeCode => exact ⟨_, names_matcher compiled, Bytes.toNat_word _⟩
  case serviceUuid_eq_none =>
    rw [Layout.serviceUuid, Option.map_eq_none_iff, service_eq_none_iff compiled]
  case serviceUuid =>
    intro uuid member
    obtain ⟨pattern, present, rfl⟩ := Option.map_eq_some_iff.mp member
    rw [toNat_service compiled present]
    exact names_service compiled present

end Compiled

/-- A layout with ten bytes for the type and for the service UUID. -/
def roomy : Layout where
  source := "s:0-9=000000FEAA,m:10-19=0102030405060708090a,i:20-20,p:21-21,d:22-22"
  fields := [.service ⟨.behind 0 9, [0, 0, 0, 0, 0, 0, 0, 0, 0xfe, 0xaa]⟩,
    .matcher ⟨.behind 10 9, [1, 2, 3, 4, 5, 6, 7, 8, 9, 10]⟩,
    .identifier ⟨.behind 20 0, .big⟩, .power (.behind 21 0),
    .data ⟨.behind 22 0, .big⟩]
  matcher := ⟨.behind 10 9, [1, 2, 3, 4, 5, 6, 7, 8, 9, 10]⟩
  power := .behind 21 0
  service := some ⟨.behind 0 9, [0, 0, 0, 0, 0, 0, 0, 0, 0xfe, 0xaa]⟩

/-- Of the type the last eight bytes count, of the service UUID all. -/
theorem describes_of_compile_roomy :
    compile roomy.source = .ok roomy ∧ roomy.Describes roomy.source ∧
      roomy.typeCode = 0x030405060708090a ∧ roomy.serviceUuid = some 0xfeaa := by
  have compiled : compile roomy.source = .ok roomy := by rfl
  exact ⟨compiled, describes_of_compile compiled, rfl, rfl⟩

end Layout

end Proximity
