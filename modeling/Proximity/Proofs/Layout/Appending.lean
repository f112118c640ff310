import Proximity.Proofs.Bytes
import Proximity.Proofs.Layout.Payload
import Proximity.Proofs.Layout.Reading

/-! What more data behind decoded data changes. The layout is still found where it was, and every
field lies in the part that was there before. Only the code of the company may reach beyond it, if
all fields lie in the first byte. -/

namespace Proximity

theorem Place.read_append_tail {place : Place} {data : Bytes} {align : Nat} (tail : Bytes)
    (inside : align + place.span.last < data.length) :
    place.read (data ++ tail) align = place.read data align := by
  have := place.span.first_add_width
  rw [read, read, Bytes.take_drop_append tail (by omega)]

namespace Layout

variable {layout : Layout} {data : Bytes} {reception : Reception} {align : Nat} {beacon : Beacon}

theorem manufacturerAt_append_tail (tail : Bytes) (inside : align + 1 < data.length) :
    manufacturerAt (data ++ tail) align = manufacturerAt data align := by
  rw [manufacturerAt, manufacturerAt, Bytes.slice?, Bytes.slice?,
    if_pos (by rw [List.length_append]; omega), if_pos (by omega),
    Bytes.take_drop_append tail (by omega)]

section Inside

/- Data in which all fields lie from `align` on. -/
variable (wf : layout.WellFormed) (inside : align + layout.lastOffset < data.length)
  (tail : Bytes)

include wf inside

theorem WellFormed.foundAt_append_iff :
    layout.FoundAt (data ++ tail) align ↔ layout.FoundAt data align := by
  have fits : ∀ {span : Span} {part : Bytes}, span.last ≤ layout.lastOffset →
      part.length = span.width → align + span.first + part.length ≤ data.length := by
    intro span part last length
    have := span.first_add_width
    omega
  refine and_congr ?_ (forall₂_congr fun pattern member => ?_)
  · exact Bytes.prefix_drop_append_iff tail
      (fits (le_lastOffset wf.matcher_mem) wf.matcher_length)
  · refine Bytes.prefix_drop_append_iff tail (fits (le_lastOffset (wf.service_mem member)) ?_)
    rw [List.length_reverse, wf.service_length member]

/-- What was read is read again, except for the code of the company. -/
theorem WellFormed.readsAt_append (reads : layout.ReadsAt data reception align beacon) :
    layout.ReadsAt (data ++ tail) reception align
      { beacon with manufacturer := manufacturerAt (data ++ tail) align } := by
  have ids : layout.identifiers.map (·.read (data ++ tail) align) =
      layout.identifiers.map (·.read data align) := by
    refine List.map_congr_left fun place member => Place.read_append_tail tail ?_
    have := last_le_of_mem_identifiers member
    omega
  have numbers : layout.dataFields.map (fun place => Bytes.word (place.read (data ++ tail) align)) =
      layout.dataFields.map fun place => Bytes.word (place.read data align) := by
    refine List.map_congr_left fun place member => ?_
    have := last_le_of_mem_dataFields member
    rw [Place.read_append_tail tail (by omega)]
  have power : Place.read ⟨layout.power, .big⟩ (data ++ tail) align =
      Place.read ⟨layout.power, .big⟩ data align := by
    have last : layout.power.last ≤ layout.lastOffset := le_lastOffset wf.power_mem
    exact Place.read_append_tail tail (Nat.lt_of_le_of_lt (Nat.add_le_add_left last align) inside)
  exact { reads with
    ids := reads.ids.trans ids.symm
    data := reads.data.trans numbers.symm
    txPower := by rw [power]; exact reads.txPower
    manufacturer := rfl }

end Inside

/-- No earlier place comes to match: what is expected there lies before the end of the data too. -/
theorem WellFormed.alignment?_append (wf : layout.WellFormed)
    (aligned : layout.alignment? data = some align)
    (inside : align + layout.lastOffset < data.length) (tail : Bytes) :
    layout.alignment? (data ++ tail) = some align := by
  rw [wf.alignment?_eq_some_iff] at aligned ⊢
  obtain ⟨⟨tried, found⟩, least⟩ := aligned
  refine ⟨⟨tried, (wf.foundAt_append_iff inside tail).mpr found⟩, ?_⟩
  rintro a ⟨tried', found'⟩
  by_contra earlier
  rw [Nat.not_le] at earlier
  have inside' : a + layout.lastOffset < data.length := by omega
  have := least ⟨tried', (wf.foundAt_append_iff inside' tail).mp found'⟩
  omega

/-- The later beacon is the earlier one, or all fields lie in one byte and the data `front` ends
with it. Then the earlier beacon has no code of a company, and the later one has that of `data`. -/
def SameButCode (layout : Layout) (front data : Bytes) (earlier later : Beacon) : Prop :=
  later = earlier ∨ layout.lastOffset = 0 ∧ ∃ align, layout.alignment? front = some align ∧
    front.length = align + 1 ∧ earlier.manufacturer = 0 ∧
    later = { earlier with manufacturer := manufacturerAt data align }

theorem WellFormed.exists_decode_append (wf : layout.WellFormed)
    (decodes : layout.decode data reception = some beacon) (tail : Bytes) :
    ∃ later, layout.decode (data ++ tail) reception = some later ∧
      layout.SameButCode data (data ++ tail) beacon later := by
  obtain ⟨align, aligned, inside, reads⟩ := wf.decode_eq_some decodes
  have longer : align + layout.lastOffset < (data ++ tail).length := by
    rw [List.length_append]
    omega
  have again := wf.readsAt_append inside tail reads
  refine ⟨_, wf.decode_eq_some_iff.mpr
    ⟨align, wf.alignment?_append aligned inside tail, longer, again⟩, ?_⟩
  by_cases coded : align + 1 < data.length
  · left
    rw [manufacturerAt_append_tail tail coded, ← reads.manufacturer]
  · have missing : beacon.manufacturer = 0 := by
      rw [reads.manufacturer, manufacturerAt, Bytes.slice?, if_neg (by omega)]
    exact .inr ⟨by omega, align, aligned, by omega, missing, rfl⟩

/-- What is decoded of data is decoded of the data with any more behind it, and every front part of
the data is decoded as nothing or as the same, except for the code of the company where all fields
lie in one byte and the shorter data ends with it. -/
theorem decode_append {source : String} {layout : Layout} {data : Bytes} {reception : Reception}
    {beacon : Beacon} (compiled : compile source = .ok layout)
    (decodes : layout.decode data reception = some beacon) :
    (∀ tail, ∃ later, layout.decode (data ++ tail) reception = some later ∧
      layout.SameButCode data (data ++ tail) beacon later) ∧
    ∀ front, front <+: data → layout.decode front reception = none ∨
      ∃ earlier, layout.decode front reception = some earlier ∧
        layout.SameButCode front data earlier beacon := by
  have wf := wellFormed_of_compile compiled
  refine ⟨wf.exists_decode_append decodes, ?_⟩
  rintro front ⟨tail, rfl⟩
  cases first : layout.decode front reception with
  | none => exact .inl rfl
  | some earlier =>
    obtain ⟨later, decodes', same⟩ := wf.exists_decode_append first tail
    rw [decodes] at decodes'
    cases decodes'
    exact .inr ⟨earlier, rfl, same⟩

/-- All fields lie in the first byte. -/
def oneByte : Layout where
  source := "m:0-0=1,i:0-0,p:0-0"
  fields := [.matcher ⟨⟨0, 0, by decide⟩, [1]⟩, .identifier ⟨⟨0, 0, by decide⟩, .big⟩,
    .power ⟨0, 0, by decide⟩]
  matcher := ⟨⟨0, 0, by decide⟩, [1]⟩
  power := ⟨0, 0, by decide⟩
  service := none

/-- Of the front parts of the data one ends with the byte of the fields, and shorter ones show
nothing. -/
theorem decode_append_oneByte : ∃ beacon, compile oneByte.source = .ok oneByte ∧
    oneByte.decode [0, 0, 1, 2] { rssi := -50 } = some beacon ∧
    (∀ tail, ∃ later, oneByte.decode ([0, 0, 1, 2] ++ tail) { rssi := -50 } = some later ∧
      oneByte.SameButCode [0, 0, 1, 2] ([0, 0, 1, 2] ++ tail) beacon later) ∧
    ∀ front, front <+: [0, 0, 1, 2] → oneByte.decode front { rssi := -50 } = none ∨
      ∃ earlier, oneByte.decode front { rssi := -50 } = some earlier ∧
        oneByte.SameButCode front [0, 0, 1, 2] earlier beacon := by
  have compiled : compile oneByte.source = .ok oneByte := by rfl
  exact ⟨_, compiled, rfl, decode_append compiled rfl⟩

/-- A byte that is appended becomes the high half of the code of the company. -/
theorem decode_append_ne : compile oneByte.source = .ok oneByte ∧
    ∃ beacon later, oneByte.decode [0, 0, 1] { rssi := -50 } = some beacon ∧
      oneByte.decode ([0, 0, 1] ++ [2]) { rssi := -50 } = some later ∧
      beacon.manufacturer = 0 ∧ later.manufacturer = 0x0201 ∧ later ≠ beacon := by
  refine ⟨by rfl, _, _, rfl, rfl, rfl, rfl, fun same => ?_⟩
  exact absurd (congrArg Beacon.manufacturer same) (by decide)

end Layout

end Proximity
