import Proximity.Proofs.Layout.Values
import Mathlib.Data.List.Basic

/-! Beacons under a service UUID of four bytes. A payload is laid out behind a header of two bytes,
and such a UUID takes four, so every field is read two bytes in front of where it was written. What
lies there before the first fields is zero, and a beacon is read back only if all of its payload
is. -/

namespace Proximity

/-- What is read of a payload behind a header starts as much earlier as the header is long. -/
theorem Place.read_append (place : Place) (front header payload : Bytes)
    (behind : header.length ≤ place.span.first) :
    place.read (front ++ (header ++ payload)) front.length = place.order.arrange
      ((payload.drop (place.span.first - header.length)).take place.span.width) := by
  have skip : front.length + place.span.first =
      (front ++ header).length + (place.span.first - header.length) := by
    rw [List.length_append]
    omega
  rw [read, skip, ← List.append_assoc, List.drop_length_add_append]

namespace Layout

/-- A UUID that calls for four bytes is transmitted in four. -/
theorem WellFormed.wide_header {layout : Layout} (wf : layout.WellFormed) {pattern : Pattern}
    (service : layout.service = some pattern)
    (span : pattern.span.first = 0 ∧ pattern.span.last = 3)
    (wide : UInt16.size ≤ Bytes.value pattern.expected) {company : UInt16} {payload : Bytes}
    {advertisement : Advertisement}
    (framed : advertisement = match layout.serviceUuid with
      | some uuid => .service uuid payload
      | none => .manufacturer company payload) :
    advertisement.payload = payload ∧ advertisement.header = pattern.expected.reverse := by
  have length : pattern.expected.length = 4 := by
    rw [wf.service_length service, Span.width, span.1, span.2]
  have spells := Bytes.toNat_toUInt32_word length.le
  have present : layout.serviceUuid = some (Bytes.word pattern.expected).toUInt32 := by
    rw [serviceUuid, service, Option.map_some]
  rw [present] at framed
  subst framed
  refine ⟨rfl, ?_⟩
  rw [Advertisement.header, Advertisement.uuidBytes, spells, if_neg (Nat.not_lt.mpr wide),
    ← length, Bytes.ofNat_value]
  rfl

theorem getElem?_of_encode_of_lt {layout : Layout} {sent : Beacon} {payload : Bytes}
    (encodes : layout.encode sent = .ok payload) {k : Nat} (inside : k < payload.length)
    (before : ∀ field ∈ layout.payloadFields, k + headerLength < field.place.span.first) :
    payload[k]? = some 0 := by
  have uncovered : Patch.last? (layout.patches sent) (k + headerLength) = none := by
    refine Patch.last?_eq_none_iff.mpr fun patch among => ?_
    rw [← Option.not_isSome_iff_eq_none, Patch.isSome_byte?]
    rintro ⟨start, -⟩
    obtain ⟨field, member, same⟩ := (encode_eq_ok_iff.mp encodes).1.exists_field among
    obtain ⟨offset, -⟩ := Prod.mk.inj same
    have := before field member
    omega
  rw [getElem?_of_encode encodes inside, uncovered, Option.getD_none]

theorem exists_zeros_append {layout : Layout} {sent : Beacon} {payload : Bytes}
    (encodes : layout.encode sent = .ok payload)
    (first : ∀ field ∈ layout.payloadFields, 4 ≤ field.place.span.first)
    (nonempty : layout.payloadFields ≠ []) : ∃ rest, payload = 0 :: 0 :: rest := by
  obtain ⟨field, member⟩ := List.exists_mem_of_ne_nil _ nonempty
  have last := Nat.le_trans (Nat.le_trans (first field member) field.place.span.first_le_last)
    (le_lastOffset (List.mem_filter.mp member).1)
  have length := length_of_encode encodes
  unfold payloadLength headerLength at length
  have zero {k : Nat} (low : k < 2) : payload[k]? = some 0 := by
    refine getElem?_of_encode_of_lt encodes (by omega) fun other among => ?_
    have := first other among
    rw [headerLength]
    omega
  have front := zero (show 0 < 2 by decide)
  have back := zero (show 1 < 2 by decide)
  obtain _ | ⟨a, _ | ⟨b, rest⟩⟩ := payload
  · cases front
  · cases back
  · cases front
    cases back
    exact ⟨rest, rfl⟩

section Wide

/- A payload behind a UUID of four bytes, with the UUID aligned at the end of `front`. -/
variable {layout : Layout} {sent : Beacon} {payload front uuid : Bytes}
  (encodes : layout.encode sent = .ok payload) (four : uuid.length = 4)
  (first : ∀ field ∈ layout.payloadFields, 4 ≤ field.place.span.first)

include encodes four first

variable (front) in
/-- What is read at a place lies two bytes in front of what was written there. -/
theorem read_wide {place : Place} {value : Bytes}
    (among : place.patch value ∈ layout.patches sent) :
    4 ≤ place.span.first ∧
      place.read (front ++ (uuid ++ payload)) front.length = place.order.arrange
        ((payload.drop (place.span.first - 4)).take place.span.width) ∧
      (place.read (front ++ (uuid ++ payload)) front.length).length = place.span.width := by
  have encodable := (encode_eq_ok_iff.mp encodes).1
  obtain ⟨field, member, same⟩ := encodable.exists_field among
  rw [Field.extent_patch, Field.extent, Prod.mk.injEq] at same
  have behind := first field member
  have last := place.span.first_add_width
  have within := (encodable.fits _ among).2
  rw [← length_of_encode encodes] at within
  simp only [Place.patch, ByteOrder.length_arrange, Bytes.length_fit, headerLength] at within
  have read := place.read_append front uuid payload (by omega)
  rw [four] at read
  refine ⟨by omega, read, ?_⟩
  rw [read, ByteOrder.length_arrange, List.length_take, List.length_drop]
  omega

/-- Where a value is found again, each byte that was written is zero or the byte that is read. -/
theorem byte?_of_restored {place : Place} {value : Bytes}
    (among : place.patch value ∈ layout.patches sent)
    (restored : Bytes.fit value.length (place.read (front ++ (uuid ++ payload)) front.length) =
      value) {k : Nat} {b : UInt8}
    (holds : (place.patch value).byte? (k + headerLength) = some b) :
    2 ≤ k ∧ payload[k - 2]? = some b ∨ b = 0 := by
  obtain ⟨behind, read, width⟩ := read_wide front encodes four first among
  obtain ⟨start, stop⟩ := Patch.isSome_byte?.mp (Option.isSome_of_eq_some holds)
  rw [Patch.byte?, if_pos start] at holds
  simp only [Place.patch, ByteOrder.length_arrange, Bytes.length_fit, headerLength]
    at start stop holds
  rw [← restored, ← width] at holds
  rcases ByteOrder.getElem?_arrange_fit_fit place.order
    (place.read (front ++ (uuid ++ payload)) front.length) value.length
      (show k + 2 - place.span.first < _ by omega) with kept | zero
  · left
    rw [kept, read, ByteOrder.arrange_arrange, List.getElem?_take_of_lt (by omega),
      List.getElem?_drop] at holds
    exact ⟨by omega, by rw [← holds]; congr 1; omega⟩
  · right
    exact (Option.some.inj (zero.symm.trans holds)).symm

/-- Where every value is found again the payload is zero, since each byte of it that is not is the
byte two places in front of it. -/
theorem eq_zero_of_restores (wf : layout.WellFormed)
    (restores : layout.Restores sent (front ++ (uuid ++ payload)) front.length) :
    ∀ k < payload.length, payload[k]? = some 0 := by
  intro k
  -- Under the first fields lie bytes that no field has, so the induction starts from zeros.
  induction k using Nat.strong_induction_on with
  | h k earlier =>
    intro inside
    rw [getElem?_of_encode encodes inside]
    cases counts : Patch.last? (layout.patches sent) (k + headerLength) with
    | none => rfl
    | some b =>
      obtain ⟨patch, among, holds⟩ := Patch.exists_of_last? counts
      obtain ⟨place, value, writes, rfl⟩ := wf.mem_patches_iff.mp among
      rcases byte?_of_restored encodes four first among (restores place value writes) holds with
        ⟨late, moved⟩ | rfl
      · rw [Option.getD_some, ← moved, earlier (k - 2) (by omega) (by omega)]
      · rfl

theorem restores_of_eq_zero (wf : layout.WellFormed) (agree : Patch.Agree (layout.patches sent))
    (fills : layout.Fills sent) (zeros : ∀ b ∈ payload, b = 0) :
    layout.Restores sent (front ++ (uuid ++ payload)) front.length := by
  intro place value writes
  have among := wf.mem_patches_iff.mpr ⟨place, value, writes, rfl⟩
  obtain ⟨-, read, -⟩ := read_wide front encodes four first among
  have readsZero : Bytes.value (place.read (front ++ (uuid ++ payload)) front.length) = 0 := by
    refine Bytes.value_eq_zero fun b member => zeros b ?_
    rw [read, ByteOrder.mem_arrange] at member
    exact List.mem_of_mem_drop (List.mem_of_mem_take member)
  have writesZero : Bytes.value (Bytes.fit place.span.width value) = 0 := by
    refine Bytes.value_eq_zero fun b member => zeros b ?_
    have slice := slice_of_encode encodes agree among
    have written : b ∈ (place.patch value).bytes := ByteOrder.mem_arrange.mpr member
    rw [← slice] at written
    exact List.mem_of_mem_drop (List.mem_of_mem_take written)
  rw [Bytes.value_fit, Nat.mod_eq_of_lt (writes.value_lt wf fills)] at writesZero
  apply Bytes.eq_of_value_eq (Bytes.length_fit _ _)
  rw [Bytes.value_fit, readsZero, writesZero, Nat.zero_mod]

/-- The UUID is found one or two bytes behind its place only if it is zero, since the payload starts
with two zeros. -/
theorem eq_zero_of_prefix_drop (nonempty : layout.payloadFields ≠ []) {skip : Nat}
    (moved : skip = 1 ∨ skip = 2) (found : uuid <+: (uuid ++ payload).drop skip) :
    ∀ b ∈ uuid, b = 0 := by
  obtain ⟨rest, rfl⟩ := exists_zeros_append encodes first nonempty
  obtain ⟨a, b, c, d, rfl⟩ := List.length_eq_four.mp four
  obtain rfl | rfl := moved <;> simp_all [List.cons_prefix_cons]

/-- So data in which all fields lie is aligned at the UUID, unless that is zero. -/
theorem align_eq_of_prefix (nonempty : layout.payloadFields ≠ []) (nonzero : ¬ ∀ b ∈ uuid, b = 0)
    {align : Nat} (late : front.length ≤ align)
    (inside : align + layout.lastOffset < (front ++ (uuid ++ payload)).length)
    (found : uuid <+: (front ++ (uuid ++ payload)).drop align) : align = front.length := by
  obtain ⟨skip, rfl⟩ := Nat.exists_eq_add_of_le late
  obtain ⟨rest, starts⟩ := exists_zeros_append encodes first nonempty
  have length := length_of_encode encodes
  rw [starts] at length
  simp only [List.length_append, four, starts, payloadLength, headerLength, List.length_cons]
    at inside length
  rw [List.drop_length_add_append] at found
  -- Three bytes further on the last field would no longer lie in the data.
  by_contra moved
  exact nonzero (eq_zero_of_prefix_drop encodes four first nonempty (by omega) found)

end Wide

section Decoded

/- The payload is behind the UUID of the layout, and that behind the header of an AD structure. -/
variable {layout : Layout} {sent : Beacon} {payload front : Bytes} {pattern : Pattern}
  {reception : Reception} (wf : layout.WellFormed) (fills : layout.Fills sent)
  (encodes : layout.encode sent = .ok payload) (two : front.length = 2)
  (service : layout.service = some pattern) (span : pattern.span.first = 0 ∧ pattern.span.last = 3)
  (first : ∀ field ∈ layout.payloadFields, 4 ≤ field.place.span.first)

include wf fills encodes two service span first

theorem eq_zero_of_returns (wide : UInt16.size ≤ Bytes.value pattern.expected) {received : Beacon}
    (decodes : layout.decode (front ++ (pattern.expected.reverse ++ payload)) reception =
      some received)
    (returns : layout.Returns sent received) : ∀ b ∈ payload, b = 0 := by
  have four : pattern.expected.reverse.length = 4 := by
    rw [List.length_reverse, wf.service_length service, Span.width, span.1, span.2]
  have nonempty : layout.payloadFields ≠ [] :=
    List.ne_nil_of_mem (List.mem_filter.mpr ⟨wf.matcher_mem, rfl⟩)
  have nonzero : ¬ ∀ b ∈ pattern.expected.reverse, b = 0 := by
    intro zeros
    rw [Bytes.value_eq_zero fun b member => zeros b (List.mem_reverse.mpr member)] at wide
    exact absurd wide (by decide)
  obtain ⟨align, aligned, inside, reads⟩ := wf.decode_eq_some decodes
  obtain ⟨⟨late, -⟩, type, services⟩ := (wf.alignment?_eq_some_iff.mp aligned).1
  have uuid := services pattern service
  rw [span.1, Nat.add_zero] at uuid
  obtain rfl := align_eq_of_prefix encodes four first nonempty nonzero (two.trans_le late) inside
    uuid
  have restores := (restores_iff wf fills (encode_eq_ok_iff.mp encodes).1 inside reads).mpr
    ⟨type, returns⟩
  intro b member
  obtain ⟨k, within, rfl⟩ := List.mem_iff_getElem.mp member
  have zero := eq_zero_of_restores encodes four first wf restores k within
  rwa [List.getElem?_eq_getElem within, Option.some.injEq] at zero

theorem exists_returns_of_eq_zero (agree : Patch.Agree (layout.patches sent))
    (zeros : ∀ b ∈ payload, b = 0) :
    ∃ received, layout.decode (front ++ (pattern.expected.reverse ++ payload)) reception =
      some received ∧ layout.Returns sent received := by
  have four : pattern.expected.reverse.length = 4 := by
    rw [List.length_reverse, wf.service_length service, Span.width, span.1, span.2]
  have inside : front.length + layout.lastOffset <
      (front ++ (pattern.expected.reverse ++ payload)).length := by
    simp only [List.length_append, four, length_of_encode encodes, payloadLength, headerLength]
    omega
  obtain ⟨received, readsAt, reads⟩ := wf.exists_readAt reception inside
  obtain ⟨type, returns⟩ := (restores_iff wf fills (encode_eq_ok_iff.mp encodes).1 inside reads).mp
    (restores_of_eq_zero encodes four first wf agree fills zeros)
  have found : layout.FoundAt (front ++ (pattern.expected.reverse ++ payload)) front.length := by
    refine ⟨type, fun other member => ?_⟩
    obtain rfl : pattern = other := Option.some.inj (service.symm.trans member)
    rw [span.1, Nat.add_zero, List.drop_left]
    exact List.prefix_append _ _
  rw [two] at found inside readsAt
  refine ⟨received, ?_, returns⟩
  rw [decode, wf.alignment?_of_foundAt_two found, Option.bind_eq_bind, Option.bind_some,
    if_pos inside, readsAt]

end Decoded

/-- What is advertised under a service UUID of four bytes is read back from the last AD structure if
and only if all of its payload is zero. -/
theorem decode_advertised_wide_iff {source : String} {layout : Layout} {sent : Beacon}
    {pattern : Pattern} {advertisement : Advertisement} (reception : Reception)
    (compiled : compile source = .ok layout)
    (service : layout.service = some pattern)
    (span : pattern.span.first = 0 ∧ pattern.span.last = 3)
    (wide : UInt16.size ≤ Bytes.value pattern.expected)
    (first : ∀ field ∈ layout.payloadFields, 4 ≤ field.place.span.first)
    (disjoint : layout.payloadFields.Pairwise fun a b => a.place.span.Disjoint b.place.span)
    (fills : layout.Fills sent) (advertised : layout.advertise sent = .ok advertisement) :
    ∃ structures last, advertisement.structures = .ok structures ∧
      structures.getLast? = some last ∧
      ((∃ received, layout.decode last.toBytes reception = some received ∧
        layout.Returns sent received) ↔ ∀ b ∈ advertisement.payload, b = 0) := by
  have wf := wellFormed_of_compile compiled
  obtain ⟨payload, structures, encodes, frames, framed⟩ := advertise_eq_ok advertised
  have agree := (encode_eq_ok_iff.mp encodes).1.agree disjoint
  obtain ⟨carried, header⟩ := wf.wide_header service span wide framed
  obtain ⟨last, isLast, body⟩ := Advertisement.exists_last frames
  obtain ⟨front, two, bytes⟩ := last.exists_front
  refine ⟨structures, last, frames, isLast, ?_⟩
  rw [bytes, body, carried, header]
  constructor
  · rintro ⟨received, decodes, returns⟩
    exact eq_zero_of_returns wf fills encodes two service span first wide decodes returns
  · exact exists_returns_of_eq_zero wf fills encodes two service span first agree

/-- A layout with a service UUID of four bytes, a type of one byte and no more fields than a layout
must have. -/
def wide (source : String) (type : UInt8) : Layout where
  source
  fields := [.service ⟨.behind 0 3, [0, 1, 0, 0]⟩, .matcher ⟨.behind 4 0, [type]⟩,
    .identifier ⟨.behind 5 0, .big⟩, .power (.behind 6 0)]
  matcher := ⟨.behind 4 0, [type]⟩
  power := .behind 6 0
  service := some ⟨.behind 0 3, [0, 1, 0, 0]⟩

/-- A beacon of the type zero that has zero for its identifier and its power is read back. -/
theorem decode_advertised_wide_zero :
    let layout := wide "s:0-3=10000,m:4-4=0,i:5-5,p:6-6" 0
    ∃ sent advertisement, compile layout.source = .ok layout ∧
      layout.service = some ⟨.behind 0 3, [0, 1, 0, 0]⟩ ∧
      UInt16.size ≤ Bytes.value [0, 1, 0, 0] ∧
      (∀ field ∈ layout.payloadFields, 4 ≤ field.place.span.first) ∧
      (layout.payloadFields.Pairwise fun a b => a.place.span.Disjoint b.place.span) ∧
      layout.Fills sent ∧ layout.advertise sent = .ok advertisement ∧
      ∃ structures last received, advertisement.structures = .ok structures ∧
        structures.getLast? = some last ∧
        layout.decode last.toBytes { rssi := -50 } = some received ∧
        layout.Returns sent received := by
  intro layout
  have compiled : compile layout.source = .ok layout := by decide +kernel
  have first : ∀ field ∈ layout.payloadFields, 4 ≤ field.place.span.first := by decide
  have disjoint : layout.payloadFields.Pairwise fun a b => a.place.span.Disjoint b.place.span := by
    decide
  let sent : Beacon :=
    { ids := [⟨[0], by decide⟩], ids_ne_nil := by decide, txPower := 0, rssi := 0 }
  have fills : layout.Fills sent := ⟨rfl, by rintro _ _ ⟨⟩⟩
  have advertised : layout.advertise sent = .ok (.service 0x10000 [0, 0, 0, 0, 0]) := by rfl
  obtain ⟨structures, last, frames, isLast, returns⟩ := decode_advertised_wide_iff { rssi := -50 }
    compiled rfl ⟨rfl, rfl⟩ (by decide) first disjoint fills advertised
  obtain ⟨received, decodes, same⟩ := returns.mpr (by decide +kernel)
  exact ⟨sent, _, compiled, rfl, by decide, first, disjoint, fills, advertised, structures, last,
    received, frames, isLast, decodes, same⟩

/-- A beacon of the type one is not even recognised. -/
theorem decode_advertised_wide_eq_none :
    let layout := wide "s:0-3=10000,m:4-4=1,i:5-5,p:6-6" 1
    let sent : Beacon :=
      { ids := [⟨[7], by decide⟩], ids_ne_nil := by decide, txPower := -59, rssi := 0 }
    compile layout.source = .ok layout ∧
      layout.service = some ⟨.behind 0 3, [0, 1, 0, 0]⟩ ∧
      UInt16.size ≤ Bytes.value [0, 1, 0, 0] ∧
      (∀ field ∈ layout.payloadFields, 4 ≤ field.place.span.first) ∧
      (layout.payloadFields.Pairwise fun a b => a.place.span.Disjoint b.place.span) ∧
      layout.Fills sent ∧
      ∃ advertisement structures last, layout.advertise sent = .ok advertisement ∧
        advertisement.structures = .ok structures ∧ structures.getLast? = some last ∧
        layout.decode last.toBytes { rssi := 0 } = none := by
  refine ⟨by rfl, rfl, by decide, by decide, by decide, ⟨rfl, by rintro _ _ ⟨⟩⟩, ?_⟩
  exact ⟨_, _, _, rfl, rfl, rfl, by decide⟩

end Layout

end Proximity
