import Proximity.Proofs.Bytes
import Proximity.Proofs.Layout.Payload

/-! Encoding, told byte by byte. A byte of the payload is the one that the last declared field to
cover its offset gives, and a beacon that cannot be encoded is refused for the first fault. -/

namespace Proximity

/-- What holds of some element is told apart at the last one of which it holds. -/
theorem exists_last_split {α : Type} {p : α → Prop} {l : List α} (some : ∃ a ∈ l, p a) :
    ∃ front a back, l = front ++ a :: back ∧ p a ∧ ∀ b ∈ back, ¬ p b := by
  induction l using List.reverseRecOn with
  | nil => simp at some
  | append_singleton l last ih =>
    by_cases holds : p last
    · exact ⟨l, last, [], rfl, holds, by simp⟩
    · obtain ⟨a, member, holdsA⟩ := some
      have earlier : a ∈ l := by
        rcases List.mem_append.mp member with earlier | here
        · exact earlier
        · rw [List.mem_singleton.mp here] at holdsA
          exact absurd holdsA holds
      obtain ⟨front, b, back, rfl, holdsB, later⟩ := ih ⟨a, earlier, holdsA⟩
      refine ⟨front, b, back ++ [last], by simp, holdsB, fun c among => ?_⟩
      rcases List.mem_append.mp among with inside | here
      · exact later c inside
      · rwa [List.mem_singleton.mp here]

namespace Bytes

/-- The `k`-th byte from the end. There are zeros in front of the first. -/
def digit (bytes : Bytes) (k : Nat) : UInt8 := bytes.reverse[k]?.getD 0

theorem getElem?_fit {width k : Nat} (bytes : Bytes) (inside : k < width) :
    (fit width bytes)[k]? = some (bytes.digit (width - 1 - k)) := by
  unfold fit digit
  by_cases padded : k < width - bytes.length
  · rw [List.getElem?_append_left (by simpa using padded), List.getElem?_replicate, if_pos padded,
      List.getElem?_eq_none (by rw [List.length_reverse]; omega), Option.getD_none]
  · have reversed : width - 1 - k < bytes.length := by omega
    rw [List.getElem?_append_right (by simpa using padded), List.length_replicate,
      List.getElem?_drop, List.getElem?_reverse reversed,
      show bytes.length - 1 - (width - 1 - k) = bytes.length - width + (k - (width - bytes.length))
        by omega, List.getElem?_eq_getElem (by omega), Option.getD_some]

theorem digit_singleton (b : UInt8) (k : Nat) : digit [b] k = if k = 0 then b else 0 := by
  cases k <;> simp [digit]

end Bytes

namespace Place

/-- The byte that a value has at an offset of the place. -/
def byteAt (place : Place) (value : Bytes) (offset : Nat) : UInt8 :=
  match place.order with
  | .big => value.digit (place.span.last - offset)
  | .little => value.digit (offset - place.span.first)

theorem byte?_patch (place : Place) (value : Bytes) {offset : Nat}
    (covers : place.span.Covers offset) :
    (place.patch value).byte? offset = some (place.byteAt value offset) := by
  obtain ⟨first, last⟩ := covers
  have width := place.span.first_add_width
  have inside : offset - place.span.first < place.span.width := by omega
  rw [Patch.byte?, patch, if_pos first]
  cases order : place.order with
  | big =>
    have weight : place.span.width - 1 - (offset - place.span.first) =
        place.span.last - offset := by omega
    simp only [ByteOrder.arrange, byteAt, order]
    rw [Bytes.getElem?_fit value inside, weight]
  | little =>
    have weight : place.span.width - 1 - (place.span.width - 1 - (offset - place.span.first)) =
        offset - place.span.first := by omega
    simp only [ByteOrder.arrange, byteAt, order]
    rw [List.getElem?_reverse (by rw [Bytes.length_fit]; exact inside), Bytes.length_fit,
      Bytes.getElem?_fit value (by omega), weight]

theorem byte?_patch_eq_none (place : Place) (value : Bytes) {offset : Nat}
    (apart : ¬ place.span.Covers offset) : (place.patch value).byte? offset = none := by
  have width := place.span.first_add_width
  rw [← Option.not_isSome_iff_eq_none, Patch.isSome_byte?]
  simp only [patch, ByteOrder.length_arrange, Bytes.length_fit]
  unfold Span.Covers at apart
  omega

end Place

namespace Field

/-- The byte that a field, declared behind the fields `front`, gives to an offset of its span. -/
def byteAt? (beacon : Beacon) (front : List Field) (offset : Nat) : Field → Option UInt8
  | .matcher pattern => pattern.expected[offset - pattern.span.first]?
  | .power span => some (if offset = span.last then beacon.txPower.toUInt8 else 0)
  | .identifier place =>
    beacon.ids[(front.filterMap identifier?).length]?.map fun id => place.byteAt id.bytes offset
  | .data place =>
    beacon.data[(front.filterMap data?).length]?.map fun n =>
      place.byteAt (Bytes.ofNat 8 n.toNat) offset
  | .service _ => none

variable {txPower : Int8} {ids : List Identifier} {numbers : List UInt64}

/-- The fields behind others are dealt what those leave. -/
theorem patches_append (front back : List Field) :
    patches txPower (front ++ back) ids numbers = patches txPower front ids numbers ++
      patches txPower back (ids.drop (front.filterMap identifier?).length)
        (numbers.drop (front.filterMap data?).length) := by
  induction front generalizing ids numbers with
  | nil => rfl
  | cons field front ih =>
    cases field with
    | matcher pattern | power span | service pattern =>
      simp [patches, ih, List.filterMap_cons, identifier?, data?]
    | identifier place => cases ids <;> simp [patches, ih, List.filterMap_cons, identifier?, data?]
    | data place => cases numbers <;> simp [patches, ih, List.filterMap_cons, identifier?, data?]

theorem exists_field_of_mem_patches {fields : List Field} {patch : Patch}
    (member : patch ∈ patches txPower fields ids numbers) :
    ∃ field ∈ fields, field.isPayload ∧ ∃ value, patch = field.place.patch value := by
  rcases mem_patches.mp member with ⟨pattern, among, rfl⟩ | ⟨span, among, rfl⟩ |
    ⟨place, id, paired, rfl⟩ | ⟨place, n, paired, rfl⟩
  · exact ⟨_, among, rfl, _, rfl⟩
  · exact ⟨_, among, rfl, _, rfl⟩
  · obtain ⟨field, among, same⟩ := List.mem_filterMap.mp (List.of_mem_zip paired).1
    cases field <;> cases same
    exact ⟨_, among, rfl, _, rfl⟩
  · obtain ⟨field, among, same⟩ := List.mem_filterMap.mp (List.of_mem_zip paired).1
    cases field <;> cases same
    exact ⟨_, among, rfl, _, rfl⟩

/-- Fields that do not cover an offset write nothing there. -/
theorem last?_patches_eq_none {fields : List Field} {offset : Nat}
    (apart : ∀ field ∈ fields, ¬ (field.isPayload ∧ field.place.span.Covers offset)) :
    Patch.last? (patches txPower fields ids numbers) offset = none := by
  refine Patch.last?_eq_none_iff.mpr fun patch member => ?_
  obtain ⟨field, among, payload, value, rfl⟩ := exists_field_of_mem_patches member
  exact Place.byte?_patch_eq_none _ _ fun covers => apart field among ⟨payload, covers⟩

/-- A payload field writes, ahead of the fields behind it, what it gives to the offset. -/
theorem exists_patch_of_covers {beacon : Beacon} {front back : List Field} {field : Field}
    {offset : Nat} (valid : field.WellFormed) (payload : field.isPayload)
    (covers : field.place.span.Covers offset)
    (idCount : beacon.ids.length = ((front ++ field :: back).filterMap identifier?).length)
    (dataCount : beacon.data.length = ((front ++ field :: back).filterMap data?).length) :
    ∃ patch ids numbers b,
      patches beacon.txPower (field :: back) (beacon.ids.drop (front.filterMap identifier?).length)
        (beacon.data.drop (front.filterMap data?).length) =
          patch :: patches beacon.txPower back ids numbers ∧
      patch.byte? offset = some b ∧ field.byteAt? beacon front offset = some b := by
  rw [List.filterMap_append, List.length_append] at idCount dataCount
  cases field with
  | matcher pattern =>
    have length : pattern.expected.length = pattern.span.width := valid.expected_length _ rfl
    have written := Place.byte?_patch ⟨pattern.span, .big⟩ pattern.expected covers
    refine ⟨_, _, _, _, rfl, written, ?_⟩
    rw [← written]
    simp only [Place.patch, ← length, Bytes.fit_length]
    exact (if_pos covers.1).symm
  | power span =>
    refine ⟨_, _, _, _, rfl, Place.byte?_patch ⟨span, .big⟩ _ covers, ?_⟩
    have last : offset ≤ span.last := covers.2
    rw [byteAt?, Place.byteAt, Bytes.digit_singleton]
    congr 2
    exact propext (by dsimp only; omega)
  | identifier place =>
    have dealt : (front.filterMap identifier?).length < beacon.ids.length := by
      rw [idCount]
      exact Nat.lt_add_of_pos_right (Nat.succ_pos _)
    rw [List.drop_eq_getElem_cons dealt]
    refine ⟨_, _, _, _, rfl, Place.byte?_patch place _ covers, ?_⟩
    rw [byteAt?, List.getElem?_eq_getElem dealt, Option.map_some]
  | data place =>
    have dealt : (front.filterMap data?).length < beacon.data.length := by
      rw [dataCount]
      exact Nat.lt_add_of_pos_right (Nat.succ_pos _)
    rw [List.drop_eq_getElem_cons dealt]
    refine ⟨_, _, _, _, rfl, Place.byte?_patch place _ covers, ?_⟩
    rw [byteAt?, List.getElem?_eq_getElem dealt, Option.map_some]
  | service pattern => cases payload

end Field

namespace Layout

/-- The payload in which each byte is that of the last payload field to cover its offset. -/
structure PayloadOf (layout : Layout) (beacon : Beacon) (payload : Bytes) : Prop where
  length : payload.length + 1 = layout.lastOffset
  covered : ∀ front field back offset, layout.fields = front ++ field :: back →
    field.isPayload ∧ field.place.span.Covers offset →
    (∀ later ∈ back, ¬ (later.isPayload ∧ later.place.span.Covers offset)) →
    ∃ b, field.byteAt? beacon front offset = some b ∧ payload[offset - headerLength]? = some b
  uncovered : ∀ offset, headerLength ≤ offset → offset ≤ layout.lastOffset →
    (∀ field ∈ layout.fields, ¬ (field.isPayload ∧ field.place.span.Covers offset)) →
    payload[offset - headerLength]? = some 0

/-- What encoding comes to. Identifiers are counted before numbers, and numbers before any field is
placed. -/
inductive Encodes (layout : Layout) (beacon : Beacon) : Except EncodeError Bytes → Prop
  | identifierCount (ids : beacon.ids.length ≠ layout.identifiers.length) :
    Encodes layout beacon
      (.error (.identifierCount layout.identifiers.length beacon.ids.length))
  | dataCount (ids : beacon.ids.length = layout.identifiers.length)
      (data : beacon.data.length ≠ layout.dataFields.length) :
    Encodes layout beacon (.error (.dataCount layout.dataFields.length beacon.data.length))
  | fieldInHeader (ids : beacon.ids.length = layout.identifiers.length)
      (data : beacon.data.length = layout.dataFields.length) {front back : List Field}
      {field : Field} (split : layout.fields = front ++ field :: back)
      (starts : field.isPayload ∧ field.place.span.first < headerLength)
      (first : ∀ earlier ∈ front,
        ¬ (earlier.isPayload ∧ earlier.place.span.first < headerLength)) :
    Encodes layout beacon (.error (.fieldInHeader field.place.span.first))
  | payload (encodable : layout.Encodable beacon) {payload : Bytes}
      (written : layout.PayloadOf beacon payload) : Encodes layout beacon (.ok payload)

theorem WellFormed.headerLength_le_lastOffset {layout : Layout} (wf : layout.WellFormed)
    (behind : ∀ field ∈ layout.payloadFields, headerLength ≤ field.place.span.first) :
    headerLength ≤ layout.lastOffset := by
  have first := behind _ (List.mem_filter.mpr ⟨wf.matcher_mem, rfl⟩)
  have last := le_lastOffset wf.matcher_mem
  have order := (Field.matcher layout.matcher).place.span.first_le_last
  omega

/-- The last payload field to cover an offset decides what the patches hold there. -/
theorem WellFormed.last?_patches {layout : Layout} (wf : layout.WellFormed) {beacon : Beacon}
    (encodable : layout.Encodable beacon) {front back : List Field} {field : Field} {offset : Nat}
    (split : layout.fields = front ++ field :: back)
    (covers : field.isPayload ∧ field.place.span.Covers offset)
    (later : ∀ other ∈ back, ¬ (other.isPayload ∧ other.place.span.Covers offset)) :
    ∃ b, field.byteAt? beacon front offset = some b ∧
      Patch.last? (layout.patches beacon) offset = some b := by
  have idCount := encodable.ids
  have dataCount := encodable.data
  rw [identifiers, split] at idCount
  rw [dataFields, split] at dataCount
  have valid := wf.fields field (split ▸ by simp)
  obtain ⟨patch, ids, numbers, b, written, holds, gives⟩ :=
    Field.exists_patch_of_covers valid covers.1 covers.2 idCount dataCount
  refine ⟨b, gives, ?_⟩
  rw [patches, split, Field.patches_append, written, Patch.last?_append, ← List.singleton_append,
    Patch.last?_append, Field.last?_patches_eq_none later, Option.none_or]
  simp [Patch.last?, holds]

theorem WellFormed.payloadOf_encode {layout : Layout} (wf : layout.WellFormed) {beacon : Beacon}
    {payload : Bytes} (encodes : layout.encode beacon = .ok payload) :
    layout.PayloadOf beacon payload := by
  have encodable := (encode_eq_ok_iff.mp encodes).1
  have behind := wf.headerLength_le_lastOffset encodable.first
  have length : payload.length + 1 = layout.lastOffset := by
    rw [length_of_encode encodes, payloadLength]
    unfold headerLength at behind ⊢
    omega
  have byte {offset : Nat} (first : headerLength ≤ offset) (last : offset ≤ layout.lastOffset) :
      payload[offset - headerLength]? =
        some ((Patch.last? (layout.patches beacon) offset).getD 0) := by
    rw [getElem?_of_encode encodes (by unfold headerLength at behind first ⊢; omega),
      Nat.sub_add_cancel first]
  refine ⟨length, fun front field back offset split covers later => ?_,
    fun offset first last apart => ?_⟩
  · obtain ⟨b, gives, holds⟩ := wf.last?_patches encodable split covers later
    have member : field ∈ layout.fields := split ▸ by simp
    have starts := encodable.first field (List.mem_filter.mpr ⟨member, covers.1⟩)
    have ends := le_lastOffset member
    obtain ⟨-, first, last⟩ := covers
    exact ⟨b, gives, by rw [byte (by omega) (by omega), holds, Option.getD_some]⟩
  · rw [byte first last, patches, Field.last?_patches_eq_none apart, Option.getD_none]

theorem PayloadOf.unique {layout : Layout} {beacon : Beacon} {payload other : Bytes}
    (written : layout.PayloadOf beacon payload) (also : layout.PayloadOf beacon other) :
    payload = other := by
  have lengths : payload.length = other.length :=
    Nat.succ.inj (written.length.trans also.length.symm)
  apply List.ext_getElem?
  intro k
  by_cases inside : k < payload.length
  · have last := written.length
    rw [show k = k + headerLength - headerLength from (Nat.add_sub_cancel _ _).symm]
    by_cases some : ∃ field ∈ layout.fields,
        field.isPayload ∧ field.place.span.Covers (k + headerLength)
    · obtain ⟨front, field, back, split, covers, later⟩ := exists_last_split some
      obtain ⟨b, gives, here⟩ := written.covered front field back _ split covers later
      obtain ⟨c, alsoGives, there⟩ := also.covered front field back _ split covers later
      rw [here, there, ← gives, ← alsoGives]
    · have apart : ∀ field ∈ layout.fields,
          ¬ (field.isPayload ∧ field.place.span.Covers (k + headerLength)) :=
        fun field member covers => some ⟨field, member, covers⟩
      have within : k + headerLength ≤ layout.lastOffset := by
        unfold headerLength
        omega
      rw [written.uncovered _ (Nat.le_add_left _ _) within apart,
        also.uncovered _ (Nat.le_add_left _ _) within apart]
  · rw [List.getElem?_eq_none (by omega), List.getElem?_eq_none (by omega)]

theorem WellFormed.encodes_encode {layout : Layout} (wf : layout.WellFormed) (beacon : Beacon) :
    layout.Encodes beacon (layout.encode beacon) := by
  cases outcome : layout.encode beacon with
  | ok payload =>
    exact .payload (encode_eq_ok_iff.mp outcome).1 (wf.payloadOf_encode outcome)
  | error e =>
    unfold encode at outcome
    dsimp only at outcome
    split at outcome
    · rename_i ids
      cases outcome
      exact .identifierCount ids
    · rename_i ids
      rw [not_not] at ids
      split at outcome
      · rename_i data
        cases outcome
        exact .dataCount ids data
      · rename_i data
        rw [not_not] at data
        split at outcome
        · rename_i field found
          cases outcome
          obtain ⟨starts, front, back, split, first⟩ := List.find?_eq_some_iff_append.mp found
          refine .fieldInHeader ids data split (Field.isInHeader_iff.mp starts) ?_
          intro earlier member
          rw [← Field.isInHeader_iff]
          simpa using first earlier member
        · cases outcome

theorem WellFormed.encode_of_encodes {layout : Layout} (wf : layout.WellFormed) {beacon : Beacon}
    {outcome : Except EncodeError Bytes} (h : layout.Encodes beacon outcome) :
    layout.encode beacon = outcome := by
  cases h with
  | identifierCount ids => exact if_pos ids
  | dataCount ids data => simp [encode, ids, data]
  | @fieldInHeader ids data front back field split starts first =>
    have found : layout.fields.find? Field.isInHeader = some field := by
      refine List.find?_eq_some_iff_append.mpr
        ⟨Field.isInHeader_iff.mpr starts, front, back, split, fun earlier member => ?_⟩
      have outside := first earlier member
      rw [← Field.isInHeader_iff] at outside
      simpa using outside
    simp [encode, ids, data, found]
  | payload encodable written =>
    have encodes := encode_eq_ok_iff.mpr ⟨encodable, rfl⟩
    rw [encodes, written.unique (wf.payloadOf_encode encodes)]

/-- What encoding comes to, for every layout that a text declares and every beacon. -/
theorem encode_eq_iff_encodes {source : String} {layout : Layout}
    (compiled : compile source = .ok layout) (beacon : Beacon)
    (outcome : Except EncodeError Bytes) :
    layout.encode beacon = outcome ↔ layout.Encodes beacon outcome := by
  have wf := wellFormed_of_compile compiled
  refine ⟨fun encodes => ?_, wf.encode_of_encodes⟩
  rw [← encodes]
  exact wf.encodes_encode beacon

/-- A layout with a power that is written over an identifier, and with a gap behind it. -/
def crossed : Layout where
  source := "s:0-1=feaa,m:2-3=beac,i:4-6l,p:5-8,d:12-13"
  fields := [.service ⟨.behind 0 1, [0xfe, 0xaa]⟩, .matcher ⟨.behind 2 1, [0xbe, 0xac]⟩,
    .identifier ⟨.behind 4 2, .little⟩, .power (.behind 5 3),
    .data ⟨.behind 12 1, .big⟩]
  matcher := ⟨.behind 2 1, [0xbe, 0xac]⟩
  power := .behind 5 3
  service := some ⟨.behind 0 1, [0xfe, 0xaa]⟩

/-- Of the identifier only its last byte is left, and of the number its last two. -/
theorem encodes_crossed : ∃ beacon, compile crossed.source = .ok crossed ∧
    beacon.ids.map (·.bytes) = [[1, 2]] ∧ beacon.data = [0x12345] ∧
    crossed.Encodes beacon
      (.ok [0xbe, 0xac, 2, 0, 0, 0, 0xc5, 0, 0, 0, 0x23, 0x45]) := by
  have compiled : compile crossed.source = .ok crossed := by rfl
  let beacon : Beacon :=
    { ids := [⟨[1, 2], by decide⟩], ids_ne_nil := by decide, txPower := -59, rssi := 0
      data := [0x12345] }
  exact ⟨beacon, compiled, rfl, rfl, (encode_eq_iff_encodes compiled beacon _).mp (by rfl)⟩

end Layout

end Proximity
