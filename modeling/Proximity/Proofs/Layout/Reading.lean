import Proximity.Layout.Decode
import Proximity.Proofs.Layout.Compile
import Mathlib.Order.Bounds.Basic

/-! What decoding reads. The data is aligned at the least place where the expected bytes are found,
and each value is the one that lies at its field from there on. -/

namespace Proximity

theorem find?_eq_some_iff_isLeast {l : List Nat} (sorted : l.Pairwise (· < ·)) {p : Nat → Bool}
    {a : Nat} : l.find? p = some a ↔ IsLeast {b | b ∈ l ∧ p b} a := by
  rw [List.find?_eq_some_iff_append]
  constructor
  · rintro ⟨holds, front, back, rfl, rejected⟩
    refine ⟨⟨by simp, holds⟩, ?_⟩
    rintro b ⟨member, passes⟩
    rcases List.mem_append.mp member with early | late
    · have := rejected b early
      simp [passes] at this
    · rcases List.mem_cons.mp late with rfl | later
      · exact Nat.le_refl _
      · exact Nat.le_of_lt (List.rel_of_pairwise_cons (List.pairwise_append.mp sorted).2.1 later)
  · rintro ⟨⟨member, holds⟩, least⟩
    obtain ⟨front, back, rfl⟩ := List.append_of_mem member
    refine ⟨holds, front, back, rfl, ?_⟩
    intro b early
    have before := (List.pairwise_append.mp sorted).2.2 b early a List.mem_cons_self
    by_contra passes
    have := least ⟨List.mem_append_left _ early, by simpa using passes⟩
    omega

theorem Bytes.slice?_eq_some_iff {bytes part : Bytes} {start : Nat} (nonempty : part ≠ []) :
    slice? bytes start part.length = some part ↔ part <+: bytes.drop start := by
  have positive := List.length_pos_iff.mpr nonempty
  unfold slice?
  rw [List.prefix_iff_eq_take]
  split
  · rw [Option.some.injEq, eq_comm]
  · rename_i outside
    refine ⟨fun h => (by cases h), fun h => ?_⟩
    have := congrArg List.length h
    rw [List.length_take, List.length_drop] at this
    omega

theorem Place.length_read {place : Place} {data : Bytes} {align : Nat}
    (inside : align + place.span.last < data.length) :
    (place.read data align).length = place.span.width := by
  have := place.span.first_le_last
  rw [read, ByteOrder.length_arrange, List.length_take, List.length_drop, Span.width]
  omega

theorem Place.read_ne_nil {place : Place} {data : Bytes} {align : Nat}
    (inside : align + place.span.last < data.length) : place.read data align ≠ [] := by
  rw [← List.length_pos_iff, length_read inside]
  exact Nat.succ_pos _

theorem Place.exists_readIdentifier? {place : Place} {data : Bytes} {align : Nat}
    (inside : align + place.span.last < data.length) :
    ∃ id, place.readIdentifier? data align = some id ∧ id.bytes = place.read data align := by
  exact ⟨_, dif_pos (read_ne_nil inside), rfl⟩

theorem exists_mapM_readIdentifier? {places : List Place} {data : Bytes} {align : Nat}
    (inside : ∀ place ∈ places, align + place.span.last < data.length) :
    ∃ ids, places.mapM (·.readIdentifier? data align) = some ids ∧
      ids.map (·.bytes) = places.map (·.read data align) := by
  induction places with
  | nil => exact ⟨[], rfl, rfl⟩
  | cons place places ih =>
    obtain ⟨id, reads, bytes⟩ := Place.exists_readIdentifier? (inside place List.mem_cons_self)
    obtain ⟨ids, later, rest⟩ := ih fun other member => inside other (List.mem_cons_of_mem _ member)
    refine ⟨id :: ids, ?_, ?_⟩
    · rw [List.mapM_cons, reads, later]
      rfl
    · rw [List.map_cons, List.map_cons, bytes, rest]

theorem mem_alignments {align : Nat} : align ∈ alignments ↔ align ∈ Set.Icc 2 5 := by
  simp only [alignments, List.mem_cons, List.not_mem_nil, or_false, Set.mem_Icc]
  omega

theorem Identifier.bytes_inj {a b : Identifier} (same : a.bytes = b.bytes) : a = b := by
  cases a
  cases same
  rfl

namespace Layout

/-- The expected bytes of the layout lie in data that is aligned at `align`, those of the service
UUID in reverse. -/
def FoundAt (layout : Layout) (data : Bytes) (align : Nat) : Prop :=
  layout.matcher.expected <+: data.drop (align + layout.matcher.span.first) ∧
    ∀ pattern ∈ layout.service,
      pattern.expected.reverse <+: data.drop (align + pattern.span.first)

theorem WellFormed.expected_ne_nil {layout : Layout} (wf : layout.WellFormed) :
    layout.matcher.expected ≠ [] ∧ ∀ pattern ∈ layout.service, pattern.expected ≠ [] := by
  constructor
  · rw [← List.length_pos_iff, wf.matcher_length]
    exact Nat.succ_pos _
  · intro pattern member
    rw [← List.length_pos_iff, wf.service_length member]
    exact Nat.succ_pos _

theorem WellFormed.occursAt_iff {layout : Layout} (wf : layout.WellFormed) {data : Bytes}
    {align : Nat} : layout.occursAt data align = true ↔ layout.FoundAt data align := by
  obtain ⟨matcher, service⟩ := wf.expected_ne_nil
  have type : layout.matcher.occursAt .big data align = true ↔
      layout.matcher.expected <+: data.drop (align + layout.matcher.span.first) := by
    rw [Pattern.occursAt, beq_iff_eq]
    exact Bytes.slice?_eq_some_iff matcher
  have uuid : layout.service.all (·.occursAt .little data align) = true ↔
      ∀ pattern ∈ layout.service,
        pattern.expected.reverse <+: data.drop (align + pattern.span.first) := by
    rw [Option.all_eq_true]
    refine forall₂_congr fun pattern member => ?_
    rw [Pattern.occursAt, beq_iff_eq, ← List.length_reverse]
    exact Bytes.slice?_eq_some_iff (List.reverse_ne_nil_iff.mpr (service pattern member))
  rw [occursAt, Bool.and_eq_true, type, uuid, FoundAt]

/-- The data is aligned at the least of the places 2 to 5 where the expected bytes are found. -/
theorem WellFormed.alignment?_eq_some_iff {layout : Layout} (wf : layout.WellFormed) {data : Bytes}
    {align : Nat} : layout.alignment? data = some align ↔
      IsLeast {a | a ∈ Set.Icc 2 5 ∧ layout.FoundAt data a} align := by
  rw [alignment?, find?_eq_some_iff_isLeast (by decide)]
  simp only [mem_alignments, wf.occursAt_iff]

theorem WellFormed.alignment?_of_foundAt_two {layout : Layout} (wf : layout.WellFormed)
    {data : Bytes} (found : layout.FoundAt data 2) : layout.alignment? data = some 2 :=
  wf.alignment?_eq_some_iff.mpr ⟨⟨⟨by decide, by decide⟩, found⟩, fun _ other => other.1.1⟩

/-- The expected bytes of the layout are found at one of the places that are tried. -/
def FoundIn (layout : Layout) (data : Bytes) : Prop :=
  ∃ align ∈ Set.Icc 2 5, layout.FoundAt data align

theorem WellFormed.alignment?_eq_none_iff {layout : Layout} (wf : layout.WellFormed)
    {data : Bytes} : layout.alignment? data = none ↔ ¬ layout.FoundIn data := by
  rw [alignment?, List.find?_eq_none, FoundIn]
  simp only [mem_alignments, wf.occursAt_iff, not_exists, not_and]

/-- The beacon is what lies at the fields of the layout in bytes that are aligned at `align`. -/
structure ReadsAt (layout : Layout) (bytes : Bytes) (reception : Reception) (align : Nat)
    (beacon : Beacon) : Prop where
  ids : beacon.ids.map (·.bytes) = layout.identifiers.map (·.read bytes align)
  data : beacon.data = layout.dataFields.map fun place => Bytes.word (place.read bytes align)
  txPower : beacon.txPower =
    (Bytes.word (Place.read ⟨layout.power, .big⟩ bytes align)).toUInt8.toInt8
  typeCode : beacon.typeCode = layout.typeCode
  manufacturer : beacon.manufacturer = manufacturerAt bytes align
  serviceUuid : beacon.serviceUuid = layout.serviceUuid
  rssi : beacon.rssi = reception.rssi
  address : beacon.address = reception.address
  name : beacon.name = reception.name
  averageRssi : beacon.averageRssi = none

theorem WellFormed.exists_readAt {layout : Layout} (wf : layout.WellFormed) {data : Bytes}
    (reception : Reception) {align : Nat} (inside : align + layout.lastOffset < data.length) :
    ∃ beacon, layout.readAt data reception align = some beacon ∧
      layout.ReadsAt data reception align beacon := by
  have places : ∀ place ∈ layout.identifiers, align + place.span.last < data.length := by
    intro place member
    have last := last_le_of_mem_identifiers member
    exact Nat.lt_of_le_of_lt (Nat.add_le_add_left last align) inside
  obtain ⟨ids, reads, bytes⟩ := exists_mapM_readIdentifier? places
  have nonempty : ids ≠ [] := by
    rintro rfl
    exact wf.identifiers_ne_nil (List.map_eq_nil_iff.mp bytes.symm)
  rw [readAt, reads]
  simp only [Option.bind_eq_bind, Option.bind_some, Beacon.ofIds, dif_pos nonempty]
  exact ⟨_, rfl, ⟨bytes, rfl, rfl, rfl, rfl, rfl, rfl, rfl, rfl, rfl⟩⟩

theorem manufacturerAt_append {front code rest : Bytes} (short : code.length = 2) :
    manufacturerAt (front ++ (code ++ rest)) front.length =
      (Bytes.word code.reverse).toUInt16 := by
  have inside : front.length + 2 ≤ (front ++ (code ++ rest)).length := by
    simp only [List.length_append]
    omega
  rw [manufacturerAt, Bytes.slice?, if_pos inside, List.drop_left, ← short, List.take_left]
  rfl

/-- The data is decoded if the layout is found in it and all of its fields lie within. -/
theorem WellFormed.decode_eq_some {layout : Layout} (wf : layout.WellFormed) {data : Bytes}
    {reception : Reception} {beacon : Beacon} (h : layout.decode data reception = some beacon) :
    ∃ align, layout.alignment? data = some align ∧ align + layout.lastOffset < data.length ∧
      layout.ReadsAt data reception align beacon := by
  obtain ⟨align, found, h⟩ := Option.bind_eq_some_iff.mp h
  split at h
  · rename_i inside
    obtain ⟨other, reads, spec⟩ := wf.exists_readAt reception inside
    rw [reads] at h
    cases h
    exact ⟨align, found, inside, spec⟩
  · cases h

theorem WellFormed.exists_decode {layout : Layout} (wf : layout.WellFormed) {data : Bytes}
    (reception : Reception) {align : Nat} (found : layout.alignment? data = some align)
    (inside : align + layout.lastOffset < data.length) :
    ∃ beacon, layout.decode data reception = some beacon ∧
      layout.ReadsAt data reception align beacon := by
  obtain ⟨beacon, reads, spec⟩ := wf.exists_readAt reception inside
  refine ⟨beacon, ?_, spec⟩
  rw [decode, found, Option.bind_eq_bind, Option.bind_some, if_pos inside, reads]

/-- What lies at the fields decides on the whole beacon. -/
theorem ReadsAt.unique {layout : Layout} {data : Bytes} {reception : Reception} {align : Nat}
    {a b : Beacon} (ha : layout.ReadsAt data reception align a)
    (hb : layout.ReadsAt data reception align b) : a = b := by
  have ids : a.ids = b.ids :=
    (List.map_inj_right fun _ _ => Identifier.bytes_inj).mp (ha.ids.trans hb.ids.symm)
  have numbers : a.data = b.data := ha.data.trans hb.data.symm
  have txPower : a.txPower = b.txPower := ha.txPower.trans hb.txPower.symm
  have typeCode : a.typeCode = b.typeCode := ha.typeCode.trans hb.typeCode.symm
  have manufacturer : a.manufacturer = b.manufacturer := ha.manufacturer.trans hb.manufacturer.symm
  have serviceUuid : a.serviceUuid = b.serviceUuid := ha.serviceUuid.trans hb.serviceUuid.symm
  have rssi : a.rssi = b.rssi := ha.rssi.trans hb.rssi.symm
  have address : a.address = b.address := ha.address.trans hb.address.symm
  have name : a.name = b.name := ha.name.trans hb.name.symm
  have averageRssi : a.averageRssi = b.averageRssi := ha.averageRssi.trans hb.averageRssi.symm
  cases a
  cases b
  congr

theorem WellFormed.decode_eq_some_iff {layout : Layout} (wf : layout.WellFormed) {data : Bytes}
    {reception : Reception} {beacon : Beacon} : layout.decode data reception = some beacon ↔
      ∃ align, layout.alignment? data = some align ∧ align + layout.lastOffset < data.length ∧
        layout.ReadsAt data reception align beacon := by
  refine ⟨wf.decode_eq_some, ?_⟩
  rintro ⟨align, aligned, inside, reads⟩
  obtain ⟨other, decodes, reads'⟩ := wf.exists_decode reception aligned inside
  rw [decodes, reads'.unique reads]

/-- Data is decoded if and only if all fields lie in it from where the layout is found on. -/
theorem WellFormed.isSome_decode_iff {layout : Layout} (wf : layout.WellFormed) {data : Bytes}
    {reception : Reception} : (layout.decode data reception).isSome ↔
      ∃ align, layout.alignment? data = some align ∧ align + layout.lastOffset < data.length := by
  rw [Option.isSome_iff_exists]
  constructor
  · rintro ⟨beacon, decodes⟩
    obtain ⟨align, aligned, inside, -⟩ := wf.decode_eq_some decodes
    exact ⟨align, aligned, inside⟩
  · rintro ⟨align, aligned, inside⟩
    obtain ⟨beacon, decodes, -⟩ := wf.exists_decode reception aligned inside
    exact ⟨beacon, decodes⟩

end Layout

end Proximity
