import Proximity.Advertisement
import Proximity.Proofs.Bytes
import Proximity.Proofs.Layout.Payload
import Proximity.Proofs.Layout.Reading

/-! Decoding and encoding undo each other. What is advertised with a layout is read back from the
last AD structure, up to the bytes that a field has no room for, and what was read from data is
written as the bytes that the data has there. -/

namespace Proximity

theorem map_eq_zipWith {α β γ : Type} {f : α → γ} {g : α → β → γ} {as : List α} {bs : List β}
    (length : as.length = bs.length) (same : ∀ a b, (a, b) ∈ as.zip bs → f a = g a b) :
    as.map f = List.zipWith g as bs := by
  refine List.ext_getElem (by simp [length]) fun k inside both => ?_
  rw [List.getElem_map, List.getElem_zipWith]
  refine same _ _ (List.mem_iff_getElem.mpr ⟨k, ?_, List.getElem_zip⟩)
  simpa [length] using inside

theorem eq_of_mem_zip {α β γ : Type} {f : β → γ} {g : α → γ} {as : List α} {bs : List β}
    (same : bs.map f = as.map g) {a : α} {b : β} (paired : (a, b) ∈ as.zip bs) : f b = g a := by
  obtain ⟨k, inside, both⟩ := List.mem_iff_getElem.mp paired
  rw [List.length_zip] at inside
  rw [List.getElem_zip, Prod.mk.injEq] at both
  obtain ⟨rfl, rfl⟩ := both
  have := List.getElem_of_eq same (i := k) (by rw [List.length_map]; omega)
  rwa [List.getElem_map, List.getElem_map] at this

theorem AdStructure.exists_front (s : AdStructure) :
    ∃ front : Bytes, front.length = 2 ∧ s.toBytes = front ++ s.body :=
  ⟨[UInt8.ofNat (s.body.length + 1), s.kind], rfl, rfl⟩

namespace Advertisement

/-- The code or UUID as it is transmitted before the payload. -/
def header : Advertisement → Bytes
  | .manufacturer company _ => ByteOrder.little.arrange (Bytes.ofNat 2 company.toNat)
  | .service uuid _ => uuidBytes uuid

theorem ofBody_eq_ok {kind : UInt8} {body : Bytes} {s : AdStructure}
    (h : AdStructure.ofBody kind body = .ok s) : s.kind = kind ∧ s.body = body := by
  unfold AdStructure.ofBody at h
  split at h
  · cases h
    exact ⟨rfl, rfl⟩
  · cases h

/-- The last AD structure holds the payload behind the code or UUID. -/
theorem exists_last {advertisement : Advertisement} {structures : List AdStructure}
    (h : advertisement.structures = .ok structures) :
    ∃ last, structures.getLast? = some last ∧
      last.body = advertisement.header ++ advertisement.payload := by
  cases advertisement with
  | manufacturer company payload =>
    obtain ⟨last, holds, h⟩ := bind_eq_ok.mp h
    cases h
    exact ⟨last, rfl, (ofBody_eq_ok holds).2⟩
  | service uuid payload =>
    obtain ⟨listed, -, h⟩ := bind_eq_ok.mp h
    obtain ⟨last, holds, h⟩ := bind_eq_ok.mp h
    cases h
    exact ⟨last, rfl, (ofBody_eq_ok holds).2⟩

end Advertisement

namespace Layout

theorem advertise_eq_ok {layout : Layout} {beacon : Beacon} {advertisement : Advertisement}
    (h : layout.advertise beacon = .ok advertisement) :
    ∃ payload structures, layout.encode beacon = .ok payload ∧
      advertisement.structures = .ok structures ∧
      advertisement = match layout.serviceUuid with
        | some uuid => .service uuid payload
        | none => .manufacturer beacon.manufacturer payload := by
  obtain ⟨payload, encodes, h⟩ := bind_eq_ok.mp h
  obtain ⟨structures, frames, h⟩ := bind_eq_ok.mp h
  cases h
  exact ⟨payload, structures, encodes, frames, rfl⟩

/-- What arrives of a beacon that is advertised with a layout: its identifiers and numbers as far as
their fields have room, and its transmit power. -/
structure Delivers (layout : Layout) (sent received : Beacon) : Prop where
  ids_length : received.ids.length = sent.ids.length
  ids : received.ids.map (·.bytes) = List.zipWith
    (fun place id => Bytes.fit place.span.width id.bytes) layout.identifiers sent.ids
  data_length : received.data.length = sent.data.length
  data : received.data.map (·.toNat) = List.zipWith
    (fun place n => n.toNat % 256 ^ place.span.width) layout.dataFields sent.data
  txPower : received.txPower = sent.txPower
  typeCode : received.typeCode = layout.typeCode
  serviceUuid : received.serviceUuid = layout.serviceUuid
  manufacturer : received.manufacturer.toNat =
    (layout.serviceUuid.map (·.toNat)).getD sent.manufacturer.toNat

section Framed

/- A payload behind `header`, with the header aligned at the end of `front`. -/
variable {layout : Layout} {sent : Beacon} {payload front header tail : Bytes}
  (encodes : layout.encode sent = .ok payload) (agree : Patch.Agree (layout.patches sent))
  (short : header.length = headerLength)

include encodes agree short

variable (front tail) in
theorem drop_take_framed {place : Place} {value : Bytes}
    (member : place.patch value ∈ layout.patches sent) :
    ((front ++ (header ++ (payload ++ tail))).drop (front.length + place.span.first)).take
      place.span.width = place.order.arrange (Bytes.fit place.span.width value) := by
  have slice := slice_of_encode encodes agree member
  obtain ⟨behind, within⟩ := (encode_eq_ok_iff.mp encodes).1.fits _ member
  rw [← length_of_encode encodes] at within
  simp only [Place.patch, ByteOrder.length_arrange, Bytes.length_fit] at slice behind within
  have skip : front.length + place.span.first =
      (front ++ header).length + (place.span.first - headerLength) := by
    rw [List.length_append, short]
    omega
  rw [← List.append_assoc front, skip, List.drop_length_add_append,
    Bytes.take_drop_append tail (by omega), slice]

variable (front tail) in
/-- What was written at a place is read there. -/
theorem read_framed {place : Place} {value : Bytes}
    (member : place.patch value ∈ layout.patches sent) :
    place.read (front ++ (header ++ (payload ++ tail))) front.length =
      Bytes.fit place.span.width value := by
  rw [Place.read, drop_take_framed front tail encodes agree short member, ByteOrder.arrange_arrange]

theorem WellFormed.foundAt_framed (wf : layout.WellFormed)
    (service : ∀ pattern ∈ layout.service,
      pattern.span.first = 0 ∧ header = pattern.expected.reverse) :
    layout.FoundAt (front ++ (header ++ (payload ++ tail))) front.length := by
  constructor
  · have written : Place.patch ⟨layout.matcher.span, .big⟩ layout.matcher.expected ∈
        layout.patches sent := Field.mem_patches.mpr (.inl ⟨_, wf.matcher_mem, rfl⟩)
    have found := drop_take_framed front tail encodes agree short written
    rw [← wf.matcher_length, Bytes.fit_length] at found
    rw [List.prefix_iff_eq_take]
    exact found.symm
  · intro pattern member
    obtain ⟨start, rfl⟩ := service pattern member
    rw [start, Nat.add_zero, List.drop_left]
    exact List.prefix_append _ _

/-- What is read of a framed payload is what the beacon that was encoded delivers. -/
theorem WellFormed.delivers_framed (wf : layout.WellFormed) {reception : Reception}
    {received : Beacon}
    (reads : layout.ReadsAt (front ++ (header ++ (payload ++ tail))) reception front.length
      received)
    (code : Bytes.value header.reverse =
      (layout.serviceUuid.map (·.toNat)).getD sent.manufacturer.toNat) :
    layout.Delivers sent received := by
  have encodable := (encode_eq_ok_iff.mp encodes).1
  have ids : received.ids.map (·.bytes) = List.zipWith
      (fun place id => Bytes.fit place.span.width id.bytes) layout.identifiers sent.ids := by
    rw [reads.ids]
    refine map_eq_zipWith encodable.ids.symm fun place id paired => ?_
    exact read_framed front tail encodes agree short
      (mem_patches.mpr (.inr (.inr (.inl ⟨place, id, paired, rfl⟩))))
  have data : received.data.map (·.toNat) = List.zipWith
      (fun place n => n.toNat % 256 ^ place.span.width) layout.dataFields sent.data := by
    rw [reads.data, List.map_map]
    refine map_eq_zipWith encodable.data.symm fun place n paired => ?_
    rw [Function.comp_apply, read_framed front tail encodes agree short
      (mem_patches.mpr (.inr (.inr (.inr ⟨place, n, paired, rfl⟩)))), Bytes.toNat_word_fit_ofNat]
  have idCount := congrArg List.length ids
  have dataCount := congrArg List.length data
  have power := read_framed front tail encodes agree short
    (mem_patches.mpr (.inr (.inl ⟨_, wf.power_mem, rfl⟩)))
  refine ⟨?_, ids, ?_, data, ?_, reads.typeCode, reads.serviceUuid, ?_⟩
  · simpa [encodable.ids] using idCount
  · simpa [encodable.data] using dataCount
  · rw [reads.txPower, power, Bytes.toUInt8_word_fit_singleton (Span.width_pos _),
      Int8.toInt8_toUInt8]
  · have bound := Bytes.value_lt header.reverse
    rw [List.length_reverse, short] at bound
    rw [reads.manufacturer, manufacturerAt_append short, UInt64.toNat_toUInt16,
      Bytes.toNat_word_of_length_le (by rw [List.length_reverse, short]; decide),
      Nat.mod_eq_of_lt (by simpa [headerLength] using bound), code]

end Framed

/-- The header under which a layout advertises spells the company code or the service UUID. -/
theorem WellFormed.header_spells {layout : Layout} (wf : layout.WellFormed) {company : UInt16}
    {payload : Bytes} {advertisement : Advertisement}
    (service : ∀ pattern ∈ layout.service, pattern.span.first = 0 ∧ pattern.span.last = 1)
    (framed : advertisement = match layout.serviceUuid with
      | some uuid => .service uuid payload
      | none => .manufacturer company payload) :
    advertisement.payload = payload ∧ advertisement.header.length = headerLength ∧
      (∀ pattern ∈ layout.service, advertisement.header = pattern.expected.reverse) ∧
      Bytes.value advertisement.header.reverse =
        (layout.serviceUuid.map (·.toNat)).getD company.toNat := by
  cases uuid : layout.service with
  | none =>
    have absent : layout.serviceUuid = none := by rw [serviceUuid, uuid, Option.map_none]
    rw [absent] at framed
    subst framed
    refine ⟨rfl, by simp [Advertisement.header, headerLength], (fun _ h => by cases h), ?_⟩
    have bound := company.toNat_lt
    simp only [Advertisement.header, ByteOrder.arrange, List.reverse_reverse, Bytes.value_ofNat,
      absent, Option.map_none, Option.getD_none]
    omega
  | some pattern =>
    obtain ⟨first, last⟩ := service pattern uuid
    have length : pattern.expected.length = 2 := by
      rw [wf.service_length uuid, Span.width, first, last]
    have bound := Bytes.value_lt pattern.expected
    rw [length] at bound
    have spells := Bytes.toNat_toUInt32_word (show pattern.expected.length ≤ 4 by omega)
    have present : layout.serviceUuid = some (Bytes.word pattern.expected).toUInt32 := by
      rw [serviceUuid, uuid, Option.map_some]
    have header : Advertisement.uuidBytes (Bytes.word pattern.expected).toUInt32 =
        pattern.expected.reverse := by
      rw [Advertisement.uuidBytes, spells, if_pos (by omega), ← length, Bytes.ofNat_value]
      rfl
    rw [present] at framed
    subst framed
    refine ⟨rfl, ?_, ?_, ?_⟩
    · rw [Advertisement.header, header, List.length_reverse, length, headerLength]
    · rintro _ ⟨⟩
      exact header
    · rw [Advertisement.header, header, List.reverse_reverse, present, Option.map_some,
        Option.getD_some, spells]

/-- What is advertised with a layout is read back from the last AD structure, whatever the byte
orders, if no payload fields overlap and a service UUID takes the place of the company code. -/
theorem decode_advertised {source : String} {layout : Layout} {sent : Beacon}
    {advertisement : Advertisement} (reception : Reception)
    (compiled : compile source = .ok layout)
    (disjoint : layout.payloadFields.Pairwise fun a b => a.place.span.Disjoint b.place.span)
    (service : ∀ pattern ∈ layout.service, pattern.span.first = 0 ∧ pattern.span.last = 1)
    (advertised : layout.advertise sent = .ok advertisement) :
    ∃ structures last received, advertisement.structures = .ok structures ∧
      structures.getLast? = some last ∧
      layout.decode last.toBytes reception = some received ∧ layout.Delivers sent received := by
  have wf := wellFormed_of_compile compiled
  obtain ⟨payload, structures, encodes, frames, framed⟩ := advertise_eq_ok advertised
  have agree := (encode_eq_ok_iff.mp encodes).1.agree disjoint
  obtain ⟨carried, short, reversed, spells⟩ := wf.header_spells service framed
  obtain ⟨last, isLast, body⟩ := Advertisement.exists_last frames
  obtain ⟨front, two, bytes⟩ : ∃ front : Bytes, front.length = 2 ∧
      last.toBytes = front ++ (advertisement.header ++ (payload ++ [])) := by
    refine ⟨[UInt8.ofNat (last.body.length + 1), last.kind], rfl, ?_⟩
    rw [AdStructure.toBytes, body, carried, List.append_nil]
    rfl
  have found : layout.FoundAt last.toBytes 2 := by
    rw [bytes, ← two]
    exact wf.foundAt_framed encodes agree short
      fun pattern member => ⟨(service pattern member).1, reversed pattern member⟩
  have aligned : layout.alignment? last.toBytes = some 2 :=
    wf.alignment?_eq_some_iff.mpr ⟨⟨⟨by decide, by decide⟩, found⟩, fun _ other => other.1.1⟩
  have inside : 2 + layout.lastOffset < last.toBytes.length := by
    rw [bytes]
    simp only [List.length_append, two, short, length_of_encode encodes, payloadLength,
      headerLength, List.length_nil]
    omega
  obtain ⟨received, decodes, reads⟩ := wf.exists_decode reception aligned inside
  refine ⟨structures, last, received, frames, isLast, decodes, ?_⟩
  rw [bytes, ← two] at reads
  exact wf.delivers_framed encodes agree short reads spells

/-- A layout with a service UUID, fields of both byte orders and a power of two bytes. -/
def mixed : Layout where
  source := "s:0-1=feaa,m:2-2=1,i:3-5l,p:6-7,d:8-9l"
  fields := [.service ⟨⟨0, 1, by decide⟩, [0xfe, 0xaa]⟩, .matcher ⟨⟨2, 2, by decide⟩, [1]⟩,
    .identifier ⟨⟨3, 5, by decide⟩, .little⟩, .power ⟨6, 7, by decide⟩,
    .data ⟨⟨8, 9, by decide⟩, .little⟩]
  matcher := ⟨⟨2, 2, by decide⟩, [1]⟩
  power := ⟨6, 7, by decide⟩
  service := some ⟨⟨0, 1, by decide⟩, [0xfe, 0xaa]⟩

/-- An identifier and a number that are too long for their fields are cut. -/
theorem decode_advertised_mixed : ∃ sent advertisement, sent.data = [0x12345] ∧
    compile mixed.source = .ok mixed ∧
    (mixed.payloadFields.Pairwise fun a b => a.place.span.Disjoint b.place.span) ∧
    (∀ pattern ∈ mixed.service, pattern.span.first = 0 ∧ pattern.span.last = 1) ∧
    mixed.advertise sent = .ok advertisement ∧
    ∃ structures last received, advertisement.structures = .ok structures ∧
      structures.getLast? = some last ∧
      mixed.decode last.toBytes { rssi := -50 } = some received ∧ mixed.Delivers sent received := by
  have compiled : compile mixed.source = .ok mixed := by rfl
  have disjoint : mixed.payloadFields.Pairwise fun a b => a.place.span.Disjoint b.place.span := by
    decide
  have service : ∀ pattern ∈ mixed.service, pattern.span.first = 0 ∧ pattern.span.last = 1 := by
    rintro _ ⟨⟩
    exact ⟨rfl, rfl⟩
  let sent : Beacon :=
    { ids := [⟨[1, 2, 3, 4], by decide⟩], ids_ne_nil := by decide, txPower := -59, rssi := 0
      data := [0x12345] }
  have advertised : mixed.advertise sent =
      .ok (.service 0xfeaa [1, 4, 3, 2, 0, 0xc5, 0x45, 0x23]) := by rfl
  exact ⟨sent, _, rfl, compiled, disjoint, service, advertised,
    decode_advertised _ compiled disjoint service advertised⟩

section Decoded

/- A beacon that was read from `bytes`, aligned at `align`, with a layout whose fields are narrow
enough for their values. -/
variable {layout : Layout} {bytes : Bytes} {reception : Reception} {align : Nat} {beacon : Beacon}
  (wf : layout.WellFormed) (found : layout.FoundAt bytes align)
  (inside : align + layout.lastOffset < bytes.length)
  (reads : layout.ReadsAt bytes reception align beacon)
  (power : layout.power.width = 1) (narrow : ∀ place ∈ layout.dataFields, place.span.width ≤ 8)

include wf found inside reads power narrow

/-- Every field writes the bytes that it was read from. -/
theorem patch_bytes_decoded {patch : Patch} (member : patch ∈ layout.patches beacon) :
    patch.bytes = (bytes.drop (align + patch.offset)).take patch.bytes.length := by
  have written {place : Place} {value : Bytes}
      (same : Bytes.fit place.span.width value = place.read bytes align) :
      (place.patch value).bytes = (bytes.drop (align + (place.patch value).offset)).take
        (place.patch value).bytes.length := by
    simp only [Place.patch, ByteOrder.length_arrange, Bytes.length_fit]
    rw [same, Place.read, ByteOrder.arrange_arrange]
  have length {place : Place} {field : Field} (among : field ∈ layout.fields)
      (lies : field.place = place) : (place.read bytes align).length = place.span.width := by
    have last := le_lastOffset among
    rw [lies] at last
    exact Place.length_read (by omega)
  rcases mem_patches.mp member with ⟨pattern, among, rfl⟩ | ⟨span, among, rfl⟩ |
    ⟨place, id, paired, rfl⟩ | ⟨place, n, paired, rfl⟩
  · obtain rfl := wf.eq_matcher among
    have expected := List.prefix_iff_eq_take.mp found.1
    apply written
    rw [← wf.matcher_length, Bytes.fit_length, Place.read, ← wf.matcher_length]
    exact expected
  · obtain rfl := wf.eq_power among
    have single : (Place.read ⟨layout.power, .big⟩ bytes align).length = layout.power.width :=
      length among rfl
    obtain ⟨b, read⟩ := List.length_eq_one_iff.mp (single.trans power)
    apply written
    rw [reads.txPower, UInt8.toUInt8_toInt8, read, Bytes.toUInt8_word_singleton, power]
    exact Bytes.fit_length [b]
  · obtain ⟨field, among, same⟩ := List.mem_filterMap.mp (List.of_mem_zip paired).1
    have full : (place.read bytes align).length = place.span.width :=
      length among (by cases field <;> cases same; rfl)
    have kept := eq_of_mem_zip reads.ids paired
    apply written
    rw [kept, ← full, Bytes.fit_length]
  · have isField := (List.of_mem_zip paired).1
    obtain ⟨field, among, same⟩ := List.mem_filterMap.mp isField
    have full : (place.read bytes align).length = place.span.width :=
      length among (by cases field <;> cases same; rfl)
    have values : beacon.data.map id =
        layout.dataFields.map fun place => Bytes.word (place.read bytes align) := by
      rw [List.map_id, reads.data]
    have kept : n = Bytes.word (place.read bytes align) := eq_of_mem_zip values paired
    apply written
    rw [kept, ← full]
    exact Bytes.fit_ofNat_word (by rw [full]; exact narrow place isField)

theorem byte?_decoded {patch : Patch} (member : patch ∈ layout.patches beacon) {offset : Nat}
    {b : UInt8} (holds : patch.byte? offset = some b) : bytes[align + offset]? = some b := by
  obtain ⟨start, stop⟩ := Patch.isSome_byte?.mp (Option.isSome_of_eq_some holds)
  have same := patch_bytes_decoded wf found inside reads power narrow member
  rw [Patch.byte?, if_pos start, same, List.getElem?_take_of_lt (by omega),
    List.getElem?_drop] at holds
  rw [← holds]
  congr 1
  omega

end Decoded

/-- A payload that ends with the last field, with the bytes that data aligned at `align` has at the
payload fields and zeros between them. -/
def Reproduces (layout : Layout) (bytes : Bytes) (align : Nat) (payload : Bytes) : Prop :=
  payload.length + 1 = layout.lastOffset ∧ ∀ k < payload.length, payload[k]? =
    if ∃ field ∈ layout.payloadFields, field.place.span.Covers (headerLength + k)
    then bytes[align + headerLength + k]? else some 0

/-- Encoding what was decoded reproduces the data. Where fields overlap they were read from the same
bytes. -/
theorem encode_decoded {source : String} {layout : Layout} {bytes : Bytes} {reception : Reception}
    {beacon : Beacon} (compiled : compile source = .ok layout)
    (first : ∀ field ∈ layout.payloadFields, headerLength ≤ field.place.span.first)
    (power : layout.power.width = 1) (narrow : ∀ place ∈ layout.dataFields, place.span.width ≤ 8)
    (decoded : layout.decode bytes reception = some beacon) :
    ∃ align payload, IsLeast {a | a ∈ Set.Icc 2 5 ∧ layout.FoundAt bytes a} align ∧
      layout.encode beacon = .ok payload ∧ layout.Reproduces bytes align payload := by
  have wf := wellFormed_of_compile compiled
  obtain ⟨align, aligned, inside, reads⟩ := wf.decode_eq_some decoded
  have least := wf.alignment?_eq_some_iff.mp aligned
  have found := least.1.2
  have encodable : layout.Encodable beacon := by
    have idCount := congrArg List.length reads.ids
    have dataCount := congrArg List.length reads.data
    exact ⟨by simpa using idCount, by simpa using dataCount, first⟩
  obtain ⟨payload, encodes⟩ : ∃ payload, layout.encode beacon = .ok payload :=
    ⟨_, encode_eq_ok_iff.mpr ⟨encodable, rfl⟩⟩
  have length := length_of_encode encodes
  have behind : headerLength ≤ layout.lastOffset :=
    Nat.le_trans (first _ (List.mem_filter.mpr ⟨wf.matcher_mem, rfl⟩))
      (Nat.le_trans (Span.first_le_last _) (le_lastOffset wf.matcher_mem))
  have kept {patch : Patch} (member : patch ∈ layout.patches beacon) {offset : Nat} {b : UInt8}
      (holds : patch.byte? offset = some b) : bytes[align + offset]? = some b :=
    byte?_decoded wf found inside reads power narrow member holds
  have agree : Patch.Agree (layout.patches beacon) := by
    intro p hp q hq offset b c hb hc
    have := (kept hp hb).symm.trans (kept hq hc)
    exact Option.some.inj this
  refine ⟨align, payload, least, encodes, ?_, fun k within => ?_⟩
  · rw [length, payloadLength]
    unfold headerLength at behind ⊢
    omega
  · rw [getElem?_of_encode encodes within, Nat.add_comm k]
    split
    · rename_i covered
      obtain ⟨field, member, start, stop⟩ := covered
      obtain ⟨patch, among, same⟩ := encodable.exists_patch member
      obtain ⟨offset, width⟩ := Prod.mk.inj same
      have ends := field.place.span.first_add_width
      obtain ⟨b, holds⟩ := Option.isSome_iff_exists.mp
        (Patch.isSome_byte?.mpr (show patch.offset ≤ headerLength + k ∧
          headerLength + k < patch.offset + patch.bytes.length by omega))
      rw [agree.last?_eq among holds, Option.getD_some, Nat.add_assoc, kept among holds]
    · rename_i uncovered
      have none : Patch.last? (layout.patches beacon) (headerLength + k) = none := by
        refine Patch.last?_eq_none_iff.mpr fun patch among => ?_
        rw [← Option.not_isSome_iff_eq_none, Patch.isSome_byte?]
        rintro ⟨start, stop⟩
        obtain ⟨field, member, same⟩ := encodable.exists_field among
        obtain ⟨offset, width⟩ := Prod.mk.inj same
        have ends := field.place.span.first_add_width
        exact uncovered ⟨field, member, by omega, by omega⟩
      rw [none, Option.getD_none]

/-- A layout in which an identifier shares bytes with the matcher, the power and a number. -/
def overlapping : Layout where
  source := "m:2-3=beac,i:3-6,p:6-6,d:5-9l"
  fields := [.matcher ⟨⟨2, 3, by decide⟩, [0xbe, 0xac]⟩, .identifier ⟨⟨3, 6, by decide⟩, .big⟩,
    .power ⟨6, 6, by decide⟩, .data ⟨⟨5, 9, by decide⟩, .little⟩]
  matcher := ⟨⟨2, 3, by decide⟩, [0xbe, 0xac]⟩
  power := ⟨6, 6, by decide⟩
  service := none

/-- The data starts with flags, so that it is aligned at 5. -/
theorem encode_decoded_overlapping : ∃ bytes beacon, compile overlapping.source = .ok overlapping ∧
    (∀ field ∈ overlapping.payloadFields, headerLength ≤ field.place.span.first) ∧
    overlapping.power.width = 1 ∧
    (∀ place ∈ overlapping.dataFields, place.span.width ≤ 8) ∧
    bytes = [2, 1, 6, 11, 0xff, 0x18, 0x01, 0xbe, 0xac, 1, 2, 3, 4, 5, 6] ∧
    overlapping.decode bytes { rssi := -50 } = some beacon ∧
    ∃ align payload, IsLeast {a | a ∈ Set.Icc 2 5 ∧ overlapping.FoundAt bytes a} align ∧
      overlapping.encode beacon = .ok payload ∧ overlapping.Reproduces bytes align payload := by
  have compiled : compile overlapping.source = .ok overlapping := by rfl
  have first : ∀ field ∈ overlapping.payloadFields, headerLength ≤ field.place.span.first := by
    decide
  have narrow : ∀ place ∈ overlapping.dataFields, place.span.width ≤ 8 := by decide
  obtain ⟨beacon, decoded⟩ : ∃ beacon, overlapping.decode
      [2, 1, 6, 11, 0xff, 0x18, 0x01, 0xbe, 0xac, 1, 2, 3, 4, 5, 6] { rssi := -50 } =
        some beacon := ⟨_, rfl⟩
  exact ⟨_, beacon, compiled, first, rfl, narrow, rfl, decoded,
    encode_decoded compiled first rfl narrow decoded⟩

end Layout

end Proximity
