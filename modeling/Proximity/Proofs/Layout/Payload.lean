import Proximity.Layout.Encode
import Proximity.Proofs.Layout.Compile
import Mathlib.Data.List.Pairwise

/-! What encoding writes. Each payload field of a layout is one patch, and a byte of the payload is
the one that the last patch to cover its offset holds for it, or zero where there is none. -/

namespace Proximity

def Span.Covers (span : Span) (offset : Nat) : Prop := span.first ≤ offset ∧ offset ≤ span.last

instance (span : Span) (offset : Nat) : Decidable (span.Covers offset) :=
  inferInstanceAs (Decidable (_ ∧ _))

/-- No byte belongs to both spans. -/
def Span.Disjoint (a b : Span) : Prop := a.last < b.first ∨ b.last < a.first

instance (a b : Span) : Decidable (a.Disjoint b) := inferInstanceAs (Decidable (_ ∨ _))

/-- The byte at an offset and the `more` bytes behind it. -/
def Span.behind (first more : Nat) : Span := ⟨first, first + more, Nat.le_add_right first more⟩

theorem Span.first_add_width (span : Span) : span.first + span.width = span.last + 1 := by
  have := span.first_le_last
  unfold Span.width
  omega

theorem Span.width_pos (span : Span) : 0 < span.width := Nat.succ_pos _

namespace Bytes

theorem getElem?_overwrite {bytes patch : Bytes} {start k : Nat}
    (room : start + patch.length ≤ bytes.length) :
    (overwrite bytes start patch)[k]? =
      if start ≤ k ∧ k < start + patch.length then patch[k - start]? else bytes[k]? := by
  have front : (bytes.take start).length = start := by
    rw [List.length_take]
    omega
  have covered : (bytes.take start ++ patch).length = start + patch.length := by
    rw [List.length_append, front]
  unfold overwrite
  by_cases before : k < start
  · rw [if_neg (by omega), List.append_assoc, List.getElem?_append_left (by omega),
      List.getElem?_take_of_lt before]
  · by_cases inside : k < start + patch.length
    · rw [if_pos (by omega), List.getElem?_append_left (by omega),
        List.getElem?_append_right (by omega), front]
    · rw [if_neg (by omega), List.getElem?_append_right (by omega), covered, List.getElem?_drop]
      congr 1
      omega

end Bytes

namespace Patch

/-- The byte that the patch holds for an offset. -/
def byte? (patch : Patch) (offset : Nat) : Option UInt8 :=
  if patch.offset ≤ offset then patch.bytes[offset - patch.offset]? else none

/-- The byte that the last of the patches to cover an offset holds for it. -/
def last? (patches : List Patch) (offset : Nat) : Option UInt8 :=
  patches.reverse.findSome? (·.byte? offset)

/-- Patches that hold one byte for an offset wherever several cover it. -/
def Agree (patches : List Patch) : Prop :=
  ∀ p ∈ patches, ∀ q ∈ patches, ∀ offset b c,
    p.byte? offset = some b → q.byte? offset = some c → b = c

def extent (patch : Patch) : Nat × Nat := (patch.offset, patch.bytes.length)

theorem isSome_byte? {patch : Patch} {offset : Nat} :
    (patch.byte? offset).isSome ↔
      patch.offset ≤ offset ∧ offset < patch.offset + patch.bytes.length := by
  unfold byte?
  split
  · rw [isSome_getElem?]
    omega
  · simp
    omega

theorem byte?_add {patch : Patch} (k : Nat) : patch.byte? (patch.offset + k) = patch.bytes[k]? := by
  unfold byte?
  rw [if_pos (by omega), Nat.add_sub_cancel_left]

/-- The patch lies behind the header, within a payload of `length` bytes. -/
def Fits (patch : Patch) (length : Nat) : Prop :=
  headerLength ≤ patch.offset ∧ patch.offset + patch.bytes.length ≤ length + headerLength

theorem length_apply {patch : Patch} {payload : Bytes} (fits : patch.Fits payload.length) :
    (patch.apply payload).length = payload.length := by
  have := fits.1
  have := fits.2
  exact Bytes.length_overwrite (by omega)

theorem getElem?_apply {patch : Patch} {payload : Bytes} (fits : patch.Fits payload.length)
    (k : Nat) : (patch.apply payload)[k]? = (patch.byte? (k + headerLength)).or payload[k]? := by
  have := fits.1
  have := fits.2
  rw [apply, Bytes.getElem?_overwrite (by omega)]
  split
  · rename_i covered
    have some : (patch.byte? (k + headerLength)).isSome := isSome_byte?.mpr (by omega)
    obtain ⟨b, holds⟩ := Option.isSome_iff_exists.mp some
    rw [holds, Option.some_or, ← holds, byte?, if_pos (by omega)]
    congr 1
    omega
  · rename_i uncovered
    have none : patch.byte? (k + headerLength) = none := by
      rw [← Option.not_isSome_iff_eq_none, isSome_byte?]
      omega
    rw [none, Option.none_or]

theorem length_foldl_apply {patches : List Patch} {payload : Bytes}
    (fits : ∀ patch ∈ patches, patch.Fits payload.length) :
    (patches.foldl apply payload).length = payload.length := by
  induction patches generalizing payload with
  | nil => rfl
  | cons patch patches ih =>
    have first := length_apply (fits patch List.mem_cons_self)
    rw [List.foldl_cons, ih, first]
    intro other member
    rw [first]
    exact fits other (List.mem_cons_of_mem _ member)

/-- Later patches count before earlier ones. -/
theorem last?_append (earlier later : List Patch) (offset : Nat) :
    last? (earlier ++ later) offset = (last? later offset).or (last? earlier offset) := by
  rw [last?, List.reverse_append, List.findSome?_append]
  rfl

/-- Of patches written one after the other the last one to cover an offset counts. -/
theorem getElem?_foldl_apply {patches : List Patch} {payload : Bytes}
    (fits : ∀ patch ∈ patches, patch.Fits payload.length) (k : Nat) :
    (patches.foldl apply payload)[k]? = (last? patches (k + headerLength)).or payload[k]? := by
  induction patches generalizing payload with
  | nil => rfl
  | cons patch patches ih =>
    have first := fits patch List.mem_cons_self
    have rest : ∀ other ∈ patches, other.Fits (patch.apply payload).length := by
      intro other member
      rw [length_apply first]
      exact fits other (List.mem_cons_of_mem _ member)
    have earlier : last? (patch :: patches) (k + headerLength) =
        (last? patches (k + headerLength)).or (patch.byte? (k + headerLength)) := by
      rw [← List.singleton_append, last?_append]
      simp [last?]
    rw [List.foldl_cons, ih rest, getElem?_apply first, earlier, Option.or_assoc]

theorem exists_of_last? {patches : List Patch} {offset : Nat} {b : UInt8}
    (h : last? patches offset = some b) : ∃ patch ∈ patches, patch.byte? offset = some b := by
  obtain ⟨patch, member, holds⟩ := List.exists_of_findSome?_eq_some h
  exact ⟨patch, List.mem_reverse.mp member, holds⟩

theorem last?_eq_none_iff {patches : List Patch} {offset : Nat} :
    last? patches offset = none ↔ ∀ patch ∈ patches, patch.byte? offset = none := by
  simp [last?]

/-- Where patches agree, any of them gives the byte that counts. -/
theorem Agree.last?_eq {patches : List Patch} (agree : Agree patches) {patch : Patch}
    (member : patch ∈ patches) {offset : Nat} {b : UInt8} (holds : patch.byte? offset = some b) :
    last? patches offset = some b := by
  cases counts : last? patches offset with
  | none =>
    rw [last?_eq_none_iff.mp counts patch member] at holds
    cases holds
  | some c =>
    obtain ⟨other, among, gives⟩ := exists_of_last? counts
    rw [agree other among patch member offset c b gives holds]

/-- Patches that do not overlap agree. -/
theorem agree_of_pairwise {patches : List Patch}
    (disjoint : patches.Pairwise fun p q =>
      p.offset + p.bytes.length ≤ q.offset ∨ q.offset + q.bytes.length ≤ p.offset) :
    Agree patches := by
  intro p hp q hq offset b c hb hc
  by_cases same : p = q
  · subst same
    rw [hb] at hc
    exact Option.some.inj hc
  · have symmetric : Std.Symm fun p q : Patch =>
        p.offset + p.bytes.length ≤ q.offset ∨ q.offset + q.bytes.length ≤ p.offset :=
      ⟨fun _ _ => Or.symm⟩
    have apart := disjoint.forall hp hq same
    have inP := isSome_byte?.mp (Option.isSome_of_eq_some hb)
    have inQ := isSome_byte?.mp (Option.isSome_of_eq_some hc)
    omega

end Patch

namespace Field

/-- The field belongs to the payload. A service UUID does not. -/
def isPayload : Field → Bool
  | .service _ => false
  | _ => true

theorem isInHeader_iff {field : Field} :
    field.isInHeader ↔ field.isPayload ∧ field.place.span.first < headerLength := by
  cases field <;> simp [isInHeader, isPayload]

def extent (field : Field) : Nat × Nat := (field.place.span.first, field.place.span.width)

@[simp] theorem extent_patch (place : Place) (value : Bytes) :
    (place.patch value).extent = (place.span.first, place.span.width) := by
  simp [Place.patch, Patch.extent]

/-- Each payload field is written where it lies, if there is a value for it. -/
theorem map_extent_patches {txPower : Int8} {fields : List Field} {ids : List Identifier}
    {numbers : List UInt64} (idCount : ids.length = (fields.filterMap identifier?).length)
    (dataCount : numbers.length = (fields.filterMap data?).length) :
    (patches txPower fields ids numbers).map Patch.extent =
      (fields.filter isPayload).map extent := by
  induction fields generalizing ids numbers with
  | nil => rfl
  | cons field fields ih =>
    cases field with
    | matcher pattern =>
      simp [patches, List.filter_cons, isPayload, extent, ih idCount dataCount, place]
    | power span => simp [patches, List.filter_cons, isPayload, extent, ih idCount dataCount, place]
    | service pattern => simp [patches, isPayload, ih idCount dataCount]
    | identifier place =>
      cases ids with
      | nil => simp [identifier?] at idCount
      | cons id ids =>
        have count : ids.length = (fields.filterMap identifier?).length := Nat.succ.inj idCount
        simp [patches, List.filter_cons, isPayload, extent, ih count dataCount, Field.place]
    | data place =>
      cases numbers with
      | nil => simp [data?] at dataCount
      | cons n numbers =>
        have count : numbers.length = (fields.filterMap data?).length := Nat.succ.inj dataCount
        simp [patches, List.filter_cons, isPayload, extent, ih idCount count, Field.place]

/-- A patch comes from the matcher, from the power, or from an identifier or a number and the field
that it is dealt to. -/
theorem mem_patches {txPower : Int8} {fields : List Field} {ids : List Identifier}
    {numbers : List UInt64} {patch : Patch} :
    patch ∈ patches txPower fields ids numbers ↔
      (∃ pattern, .matcher pattern ∈ fields ∧
        patch = Place.patch ⟨pattern.span, .big⟩ pattern.expected) ∨
      (∃ span, .power span ∈ fields ∧ patch = Place.patch ⟨span, .big⟩ [txPower.toUInt8]) ∨
      (∃ place id, (place, id) ∈ (fields.filterMap identifier?).zip ids ∧
        patch = place.patch id.bytes) ∨
      (∃ place n, (place, n) ∈ (fields.filterMap data?).zip numbers ∧
        patch = place.patch (Bytes.ofNat 8 n.toNat)) := by
  induction fields generalizing ids numbers with
  | nil => simp [patches]
  | cons field fields ih =>
    cases field with
    | matcher pattern =>
      simp only [patches, List.mem_cons, ih, List.filterMap_cons, identifier?, data?, place]
      grind
    | power span =>
      simp only [patches, List.mem_cons, ih, List.filterMap_cons, identifier?, data?, place]
      grind
    | service pattern =>
      simp only [patches, List.mem_cons, ih, List.filterMap_cons, identifier?, data?]
      grind
    | identifier place =>
      cases ids with
      | nil =>
        simp only [patches, List.mem_cons, ih, List.filterMap_cons, identifier?, data?]
        grind
      | cons id ids =>
        simp only [patches, List.mem_cons, ih, List.filterMap_cons, identifier?, data?,
          List.zip_cons_cons]
        grind
    | data place =>
      cases numbers with
      | nil =>
        simp only [patches, List.mem_cons, ih, List.filterMap_cons, identifier?, data?]
        grind
      | cons n numbers =>
        simp only [patches, List.mem_cons, ih, List.filterMap_cons, identifier?, data?,
          List.zip_cons_cons]
        grind

end Field

namespace Layout

def payloadFields (layout : Layout) : List Field := layout.fields.filter Field.isPayload

def patches (layout : Layout) (beacon : Beacon) : List Patch :=
  Field.patches beacon.txPower layout.fields beacon.ids beacon.data

theorem mem_patches {layout : Layout} {beacon : Beacon} {patch : Patch} :
    patch ∈ layout.patches beacon ↔
      (∃ pattern, .matcher pattern ∈ layout.fields ∧
        patch = Place.patch ⟨pattern.span, .big⟩ pattern.expected) ∨
      (∃ span, .power span ∈ layout.fields ∧
        patch = Place.patch ⟨span, .big⟩ [beacon.txPower.toUInt8]) ∨
      (∃ place id, (place, id) ∈ layout.identifiers.zip beacon.ids ∧
        patch = place.patch id.bytes) ∨
      (∃ place n, (place, n) ∈ layout.dataFields.zip beacon.data ∧
        patch = place.patch (Bytes.ofNat 8 n.toNat)) :=
  Field.mem_patches

/-- The beacon has a value for each field, and no payload field starts in the header. -/
structure Encodable (layout : Layout) (beacon : Beacon) : Prop where
  ids : beacon.ids.length = layout.identifiers.length
  data : beacon.data.length = layout.dataFields.length
  first : ∀ field ∈ layout.payloadFields, headerLength ≤ field.place.span.first

/-- Encoding succeeds on what is encodable, and writes the patches in order. -/
theorem encode_eq_ok_iff {layout : Layout} {beacon : Beacon} {payload : Bytes} :
    layout.encode beacon = .ok payload ↔ layout.Encodable beacon ∧
      (layout.patches beacon).foldl Patch.apply (List.replicate layout.payloadLength 0) =
        payload := by
  have inHeader : layout.fields.find? Field.isInHeader = none ↔
      ∀ field ∈ layout.payloadFields, headerLength ≤ field.place.span.first := by
    rw [List.find?_eq_none, payloadFields, List.forall_mem_filter]
    refine forall₂_congr fun field _ => ?_
    rw [Field.isInHeader_iff, not_and, Nat.not_lt]
  unfold encode
  dsimp only
  split
  · rename_i idCount
    exact ⟨fun h => (by cases h), fun h => absurd h.1.ids idCount⟩
  · rename_i idCount
    split
    · rename_i dataCount
      exact ⟨fun h => (by cases h), fun h => absurd h.1.data dataCount⟩
    · rename_i dataCount
      split
      · rename_i field found
        refine ⟨fun h => (by cases h), fun h => ?_⟩
        rw [inHeader.mpr h.1.first] at found
        cases found
      · rename_i found
        have encodable : layout.Encodable beacon :=
          ⟨not_not.mp idCount, not_not.mp dataCount, inHeader.mp found⟩
        rw [Except.ok.injEq]
        exact ⟨fun h => ⟨encodable, h⟩, fun h => h.2⟩

namespace Encodable

variable {layout : Layout} {beacon : Beacon} (encodable : layout.Encodable beacon)

include encodable

theorem map_extent : (layout.patches beacon).map Patch.extent =
    layout.payloadFields.map Field.extent :=
  Field.map_extent_patches encodable.ids encodable.data

theorem exists_field {patch : Patch} (member : patch ∈ layout.patches beacon) :
    ∃ field ∈ layout.payloadFields, field.extent = patch.extent := by
  have : patch.extent ∈ layout.payloadFields.map Field.extent := by
    rw [← encodable.map_extent]
    exact List.mem_map_of_mem member
  exact List.mem_map.mp this

theorem exists_patch {field : Field} (member : field ∈ layout.payloadFields) :
    ∃ patch ∈ layout.patches beacon, patch.extent = field.extent := by
  have : field.extent ∈ (layout.patches beacon).map Patch.extent := by
    rw [encodable.map_extent]
    exact List.mem_map_of_mem member
  exact List.mem_map.mp this

theorem fits : ∀ patch ∈ layout.patches beacon, patch.Fits layout.payloadLength := by
  intro patch member
  obtain ⟨field, payload, same⟩ := encodable.exists_field member
  obtain ⟨offset, length⟩ := Prod.mk.inj same
  have first := encodable.first field payload
  have last := le_lastOffset (List.mem_filter.mp payload).1
  have width := field.place.span.first_add_width
  unfold Patch.Fits payloadLength
  omega

/-- Fields that do not overlap write patches that agree. -/
theorem agree (disjoint : layout.payloadFields.Pairwise fun a b =>
      a.place.span.Disjoint b.place.span) : Patch.Agree (layout.patches beacon) := by
  have apart : (layout.payloadFields.map Field.extent).Pairwise fun a b =>
      a.1 + a.2 ≤ b.1 ∨ b.1 + b.2 ≤ a.1 := by
    refine List.pairwise_map.mpr (disjoint.imp ?_)
    intro a b h
    have first := a.place.span.first_add_width
    have second := b.place.span.first_add_width
    unfold Span.Disjoint at h
    simp only [Field.extent]
    omega
  rw [← encodable.map_extent] at apart
  exact Patch.agree_of_pairwise (List.pairwise_map.mp apart)

end Encodable

theorem length_of_encode {layout : Layout} {beacon : Beacon} {payload : Bytes}
    (h : layout.encode beacon = .ok payload) : payload.length = layout.payloadLength := by
  obtain ⟨encodable, rfl⟩ := encode_eq_ok_iff.mp h
  rw [Patch.length_foldl_apply, List.length_replicate]
  rw [List.length_replicate]
  exact encodable.fits

/-- A byte of the payload is the one that the last patch to cover it holds, or zero. -/
theorem getElem?_of_encode {layout : Layout} {beacon : Beacon} {payload : Bytes}
    (h : layout.encode beacon = .ok payload) {k : Nat} (inside : k < payload.length) :
    payload[k]? = some ((Patch.last? (layout.patches beacon) (k + headerLength)).getD 0) := by
  rw [length_of_encode h] at inside
  obtain ⟨encodable, rfl⟩ := encode_eq_ok_iff.mp h
  have fits : ∀ patch ∈ layout.patches beacon,
      patch.Fits (List.replicate layout.payloadLength (0 : UInt8)).length := by
    rw [List.length_replicate]
    exact encodable.fits
  rw [Patch.getElem?_foldl_apply fits, List.getElem?_replicate, if_pos inside]
  cases Patch.last? (layout.patches beacon) (k + headerLength) <;> rfl

/-- Where patches agree, the bytes of each of them are found in the payload. -/
theorem slice_of_encode {layout : Layout} {beacon : Beacon} {payload : Bytes}
    (h : layout.encode beacon = .ok payload) (agree : Patch.Agree (layout.patches beacon))
    {patch : Patch} (member : patch ∈ layout.patches beacon) :
    (payload.drop (patch.offset - headerLength)).take patch.bytes.length = patch.bytes := by
  have length := length_of_encode h
  have fits := (encode_eq_ok_iff.mp h).1.fits patch member
  have behind := fits.1
  have within := fits.2
  apply List.ext_getElem?
  intro k
  by_cases inside : k < patch.bytes.length
  · have holds : patch.byte? (patch.offset - headerLength + k + headerLength) =
        some patch.bytes[k] := by
      rw [show patch.offset - headerLength + k + headerLength = patch.offset + k by omega,
        Patch.byte?_add, List.getElem?_eq_getElem inside]
    rw [List.getElem?_take_of_lt inside, List.getElem?_drop, getElem?_of_encode h (by omega),
      agree.last?_eq member holds, List.getElem?_eq_getElem inside]
    rfl
  · rw [List.getElem?_eq_none (by simp; omega), List.getElem?_eq_none (by omega)]

end Layout

end Proximity
