import Proximity.Proofs.Layout.RoundTrip
import Mathlib.Data.List.Forall2

/-! What decoding accepts and what it shows, said of the data alone. Data is decoded if the layout
is found in it with all its fields behind, wherever that is, and the beacon lies where it is found
first. -/

namespace Proximity

/-- The number that the bytes from `start` to `stop - 1` spell in the byte order. -/
def Bytes.number (bytes : Bytes) (start stop : Nat) (order : ByteOrder) : Nat :=
  value (order.arrange (bytes.extract start stop))

/-- Two lists are related element by element if their elements have the same images. -/
theorem forall₂_iff_map_eq {α β γ : Type} {R : α → β → Prop} {f : α → γ} {g : β → γ}
    {as : List α} {bs : List β} (related : ∀ a ∈ as, ∀ b, R a b ↔ g b = f a) :
    List.Forall₂ R as bs ↔ bs.map g = as.map f := by
  induction as generalizing bs with
  | nil => rw [List.forall₂_nil_left_iff, List.map_nil, List.map_eq_nil_iff]
  | cons a as ih =>
    cases bs with
    | nil => exact ⟨nofun, nofun⟩
    | cons b bs =>
      rw [List.forall₂_cons, List.map_cons, List.map_cons, List.cons.injEq,
        related a List.mem_cons_self,
        ih fun other member => related other (List.mem_cons_of_mem _ member)]

namespace Place

variable {place : Place} {data : Bytes} {align : Nat}

theorem read_eq_arrange_extract : place.read data align = place.order.arrange
    (data.extract (align + place.span.first) (align + place.span.last + 1)) := by
  have := place.span.first_le_last
  have width : align + place.span.last + 1 - (align + place.span.first) = place.span.width := by
    rw [Span.width]
    omega
  rw [read, List.extract_eq_take_drop, width]

theorem toNat_word_read : (Bytes.word (place.read data align)).toNat =
    data.number (align + place.span.first) (align + place.span.last + 1) place.order % 2 ^ 64 := by
  rw [Bytes.toNat_word, read_eq_arrange_extract, Bytes.number]

/-- An identifier is cut out of data with the bytes that are read at its place. -/
theorem ofRange_eq_ok_iff (inside : align + place.span.last < data.length) {id : Identifier} :
    Identifier.ofRange data (align + place.span.first) (align + place.span.last + 1) place.order =
      .ok id ↔ id.bytes = place.read data align := by
  have := place.span.first_le_last
  have bounds : align + place.span.first < align + place.span.last + 1 ∧
      align + place.span.last + 1 ≤ data.length := by omega
  rw [Identifier.ofRange, dif_pos bounds, Except.ok.injEq, read_eq_arrange_extract,
    List.extract_eq_take_drop]
  exact ⟨fun same => by rw [← same], fun same => Identifier.bytes_inj same.symm⟩

end Place

/-- The last byte of a number with its most significant byte first lies at the end of its place. -/
theorem Span.getElem?_last (span : Span) {data : Bytes} {align : Nat}
    (inside : align + span.last < data.length) :
    data[align + span.last]? = some (Bytes.word (Place.read ⟨span, .big⟩ data align)).toUInt8 := by
  have ordered := span.first_le_last
  have length : (Place.read ⟨span, .big⟩ data align).length = span.width :=
    @Place.length_read ⟨span, .big⟩ data align inside
  have nonempty : Place.read ⟨span, .big⟩ data align ≠ [] :=
    @Place.read_ne_nil ⟨span, .big⟩ data align inside
  have last : align + span.first + (span.width - 1) = align + span.last := by
    rw [Span.width]
    omega
  rw [← Bytes.getLast?_eq_toUInt8_word nonempty, List.getLast?_eq_getElem?, length, Place.read,
    ByteOrder.arrange, List.getElem?_take, if_pos (by rw [Span.width]; omega),
    List.getElem?_drop, last]

namespace Layout

variable {layout : Layout} {data : Bytes} {reception : Reception} {align : Nat} {beacon : Beacon}

theorem toNat_manufacturerAt {low high : UInt8} (first : data[align]? = some low)
    (second : data[align + 1]? = some high) :
    (manufacturerAt data align).toNat = low.toNat + 256 * high.toNat := by
  have bytes : Bytes.slice? data align 2 = some [low, high] := by
    obtain ⟨inside, rfl⟩ := List.getElem?_eq_some_iff.mp second
    obtain ⟨inside', rfl⟩ := List.getElem?_eq_some_iff.mp first
    rw [Bytes.slice?, if_pos (by omega), List.drop_eq_getElem_cons inside',
      List.drop_eq_getElem_cons inside]
    rfl
  rw [manufacturerAt, bytes]
  exact Bytes.toNat_toUInt16_word_pair low high

theorem manufacturerAt_of_length_le (short : data.length ≤ align + 1) :
    manufacturerAt data align = 0 := by
  rw [manufacturerAt, Bytes.slice?, if_neg (by omega)]

/-- The beacon is the one that bytes aligned at `align` show: each identifier is cut out at its
place, each number is the one that the bytes there spell as far as it fits a word, and the signal
strength is the byte at the end of its field in two's complement. -/
structure Shows (layout : Layout) (bytes : Bytes) (reception : Reception) (align : Nat)
    (beacon : Beacon) : Prop where
  ids : List.Forall₂ (fun place id => Identifier.ofRange bytes (align + place.span.first)
    (align + place.span.last + 1) place.order = .ok id) layout.identifiers beacon.ids
  data : List.Forall₂ (fun place n => n.toNat = bytes.number (align + place.span.first)
    (align + place.span.last + 1) place.order % 2 ^ 64) layout.dataFields beacon.data
  txPower : ∃ b : UInt8, bytes[align + layout.power.last]? = some b ∧
    beacon.txPower.toInt = (b.toNat : Int).bmod 256
  manufacturer : ∀ low high : UInt8, bytes[align]? = some low → bytes[align + 1]? = some high →
    beacon.manufacturer.toNat = low.toNat + 256 * high.toNat
  noManufacturer : bytes.length ≤ align + 1 → beacon.manufacturer = 0
  typeCode : beacon.typeCode = layout.typeCode
  serviceUuid : beacon.serviceUuid = layout.serviceUuid
  rssi : beacon.rssi = reception.rssi
  address : beacon.address = reception.address
  name : beacon.name = reception.name
  averageRssi : beacon.averageRssi = none

theorem toInt_toInt8_eq_iff {b : UInt8} {n : Int8} :
    n.toInt = (b.toNat : Int).bmod 256 ↔ n = b.toInt8 := by
  have complement : b.toInt8.toInt = (b.toNat : Int).bmod 256 :=
    BitVec.toInt_eq_toNat_bmod b.toBitVec
  rw [← complement, Int8.toInt_inj]

theorem eq_manufacturerAt_iff {code : UInt16} :
    (∀ low high : UInt8, data[align]? = some low → data[align + 1]? = some high →
      code.toNat = low.toNat + 256 * high.toNat) ∧ (data.length ≤ align + 1 → code = 0) ↔
      code = manufacturerAt data align := by
  by_cases inside : align + 1 < data.length
  · have first : data[align]? = some data[align] := List.getElem?_eq_getElem (by omega)
    have second : data[align + 1]? = some data[align + 1] := List.getElem?_eq_getElem inside
    have value := toNat_manufacturerAt first second
    constructor
    · rintro ⟨spells, -⟩
      exact UInt16.toNat_inj.mp ((spells _ _ first second).trans value.symm)
    · rintro rfl
      refine ⟨fun low high isLow isHigh => toNat_manufacturerAt isLow isHigh, ?_⟩
      intro short
      omega
  · have short : data.length ≤ align + 1 := by omega
    rw [manufacturerAt_of_length_le short, List.getElem?_eq_none_iff.mpr short]
    simp [short]

/-- What is shown is what is read. -/
theorem WellFormed.shows_iff_readsAt (wf : layout.WellFormed)
    (inside : align + layout.lastOffset < data.length) :
    layout.Shows data reception align beacon ↔ layout.ReadsAt data reception align beacon := by
  have ids : List.Forall₂ (fun place id => Identifier.ofRange data (align + place.span.first)
      (align + place.span.last + 1) place.order = .ok id) layout.identifiers beacon.ids ↔
      beacon.ids.map (·.bytes) = layout.identifiers.map (·.read data align) := by
    refine forall₂_iff_map_eq fun place member id => place.ofRange_eq_ok_iff ?_
    have := last_le_of_mem_identifiers member
    omega
  have numbers : List.Forall₂ (fun place n => n.toNat = data.number (align + place.span.first)
      (align + place.span.last + 1) place.order % 2 ^ 64) layout.dataFields beacon.data ↔
      beacon.data = layout.dataFields.map fun place => Bytes.word (place.read data align) := by
    rw [forall₂_iff_map_eq (f := fun place : Place => Bytes.word (place.read data align)) (g := id),
      List.map_id]
    intro place _ n
    rw [← place.toNat_word_read, UInt64.toNat_inj, id]
  have power : layout.power.last ≤ layout.lastOffset := le_lastOffset wf.power_mem
  have within : align + layout.power.last < data.length := by omega
  have lastByte := layout.power.getElem?_last within
  constructor
  · intro shows
    obtain ⟨b, isLast, complement⟩ := shows.txPower
    rw [lastByte, Option.some.injEq] at isLast
    subst isLast
    exact ⟨ids.mp shows.ids, numbers.mp shows.data, toInt_toInt8_eq_iff.mp complement,
      shows.typeCode, eq_manufacturerAt_iff.mp ⟨shows.manufacturer, shows.noManufacturer⟩,
      shows.serviceUuid, shows.rssi, shows.address, shows.name, shows.averageRssi⟩
  · intro reads
    obtain ⟨spells, missing⟩ := eq_manufacturerAt_iff.mpr reads.manufacturer
    exact ⟨ids.mpr reads.ids, numbers.mpr reads.data,
      ⟨_, lastByte, toInt_toInt8_eq_iff.mpr reads.txPower⟩, spells, missing, reads.typeCode,
      reads.serviceUuid, reads.rssi, reads.address, reads.name, reads.averageRssi⟩

/-- The least place at which the layout is found is no later than one with all fields behind. -/
theorem WellFormed.isSome_decode_iff_exists (wf : layout.WellFormed) :
    (layout.decode data reception).isSome ↔ ∃ a ∈ Set.Icc 2 5, layout.FoundAt data a ∧
      a + layout.lastOffset < data.length := by
  rw [wf.isSome_decode_iff]
  constructor
  · rintro ⟨align, aligned, inside⟩
    obtain ⟨tried, found⟩ := (wf.alignment?_eq_some_iff.mp aligned).1
    exact ⟨align, tried, found, inside⟩
  · rintro ⟨a, tried, found, inside⟩
    obtain ⟨align, aligned⟩ := Option.ne_none_iff_exists'.mp
      fun none => wf.alignment?_eq_none_iff.mp none ⟨a, tried, found⟩
    have least := (wf.alignment?_eq_some_iff.mp aligned).2 ⟨tried, found⟩
    exact ⟨align, aligned, by omega⟩

/-- Data is decoded exactly if, at some place that is tried, the expected bytes of the layout are
found and all of its fields lie within. The beacon is the one that the data shows from the least
place on where the expected bytes are found. -/
theorem decode_iff_shows {source : String} {layout : Layout}
    (compiled : compile source = .ok layout) (data : Bytes) (reception : Reception) :
    ((layout.decode data reception).isSome ↔ ∃ a ∈ Set.Icc 2 5, layout.FoundAt data a ∧
      a + layout.lastOffset < data.length) ∧
    ∀ beacon, layout.decode data reception = some beacon ↔
      ∃ align, IsLeast {a | a ∈ Set.Icc 2 5 ∧ layout.FoundAt data a} align ∧
        align + layout.lastOffset < data.length ∧ layout.Shows data reception align beacon := by
  have wf := wellFormed_of_compile compiled
  refine ⟨wf.isSome_decode_iff_exists, fun beacon => ?_⟩
  rw [wf.decode_eq_some_iff]
  refine exists_congr fun align => and_congr wf.alignment?_eq_some_iff ?_
  exact and_congr_right fun inside => (wf.shows_iff_readsAt inside).symm

/-- Behind flags the layout is found at the last place that is tried. -/
theorem decode_iff_shows_mixed :
    let data := [0x02, 0x01, 0x06, 0x0b, 0x16, 0xaa, 0xfe, 1, 3, 2, 1, 0, 0xc5, 0x45, 0x23]
    compile mixed.source = .ok mixed ∧ mixed.FoundAt data 5 ∧ 5 + mixed.lastOffset < data.length ∧
      (mixed.decode data { rssi := -50 }).isSome := by
  intro data
  have compiled : compile mixed.source = .ok mixed := by rfl
  have found : mixed.FoundAt data 5 := by
    refine ⟨by decide, ?_⟩
    rintro _ ⟨⟩
    decide
  have inside : 5 + mixed.lastOffset < data.length := by decide
  exact ⟨compiled, found, inside,
    (decode_iff_shows compiled data _).1.mpr ⟨5, ⟨by decide, by decide⟩, found, inside⟩⟩

end Layout

end Proximity
