import Proximity.Proofs.Guarded.Layout
import Proximity.Proofs.Layout.Decoding
import Proximity.Proofs.Layout.Language
import Proximity.Proofs.Layout.Payload

/-! Decoding and encoding with operations that fault. None does, for any layout that a text
declares: what is decoded was measured against the last offset, and what is encoded has room up to
it. -/

namespace Proximity.Guarded

variable (size : Nat)

/-- The bytes at a place in data aligned at `align`, most significant first. -/
def fieldBytes (data : Bytes) (align : Nat) (place : Place) : Guarded Bytes := do
  let start ← add size align place.span.first
  let last ← add size align place.span.last
  return place.order.arrange (← slice data start (← add size last 1))

def ofRange (buffer : Bytes) (start stop : Nat) (order : ByteOrder) :
    Guarded (Except RangeError Identifier) :=
  if stop ≤ start ∨ buffer.length < stop then return .error ⟨start, stop, buffer.length⟩
  else do return .ok (← identifier (order.arrange (← slice buffer start stop)))

def readFields (data : Bytes) (align : Nat) :
    List Field → Guarded (List Identifier × List UInt64)
  | [] => return ([], [])
  | .identifier place :: fields => do
    let id ← identifier (← fieldBytes size data align place)
    let (ids, numbers) ← readFields data align fields
    return (id :: ids, numbers)
  | .data place :: fields => do
    let number := Bytes.word (← fieldBytes size data align place)
    let (ids, numbers) ← readFields data align fields
    return (ids, number :: numbers)
  | _ :: fields => readFields data align fields

/-- The beacon that the data advertises. The alignment is searched with look-ups that may fail, and
a sum that cannot be counted is taken for one beyond the data. Of the power the low byte is asked
for, so that no narrowing is at fault there. -/
def decode (layout : Layout) (data : Bytes) (reception : Reception) : Guarded (Option Beacon) :=
  match layout.alignment? data with
  | none => return none
  | some align =>
    match add size align layout.lastOffset with
    | .error _ => return none
    | .ok reach =>
      if reach < data.length then do
        let (ids, numbers) ← readFields size data align layout.fields
        let power := Bytes.word (← fieldBytes size data align ⟨layout.power, .big⟩)
        let serviceUuid ← layout.service.mapM fun pattern => uuid (Bytes.word pattern.expected)
        return do
          let beacon ← (Beacon.ofIds ids power.toUInt8.toInt8 reception.rssi).toOption
          return { beacon with
            data := numbers
            typeCode := layout.typeCode
            manufacturer := Layout.manufacturerAt data align
            serviceUuid
            address := reception.address
            name := reception.name }
      else return none

def fit (width : Nat) (bytes : Bytes) : Guarded Bytes := do
  if width ≤ bytes.length then slice bytes (← sub bytes.length width) bytes.length
  else return List.replicate (← sub width bytes.length) 0 ++ bytes

/-- The value of a field, and what is left of the identifiers and numbers. -/
def deal (txPower : Int8) : Field → List Identifier → List UInt64 →
    Option Bytes × List Identifier × List UInt64
  | .matcher pattern, ids, numbers => (some pattern.expected, ids, numbers)
  | .power _, ids, numbers => (some [txPower.toUInt8], ids, numbers)
  | .identifier _, ids, numbers => (ids.head?.map (·.bytes), ids.tail, numbers)
  | .data _, ids, numbers => (numbers.head?.map fun n => Bytes.ofNat 8 n.toNat, ids, numbers.tail)
  | .service _, ids, numbers => (none, ids, numbers)

/-- The payload with the value of a field written over it. -/
def writeField (field : Field) (value : Bytes) (payload : Bytes) : Guarded Bytes := do
  let width ← width size field.place.span
  let bytes := field.place.order.arrange (← fit width value)
  let start ← sub field.place.span.first headerLength
  replace payload start (← add size start width) bytes

def writeFields (txPower : Int8) : List Field → List Identifier → List UInt64 → Bytes →
    Guarded (Except EncodeError Bytes)
  | [], _, _, payload => return .ok payload
  | field :: fields, ids, numbers, payload =>
    if field.isInHeader then return .error (.fieldInHeader field.place.span.first)
    else
      let (value, ids, numbers) := deal txPower field ids numbers
      match value with
      | none => writeFields txPower fields ids numbers payload
      | some value => do
        writeFields txPower fields ids numbers (← writeField size field value payload)

/-- The payload that advertises the beacon. Its length is cut to what can be counted. -/
def encode (layout : Layout) (beacon : Beacon) : Guarded (Except EncodeError Bytes) :=
  let idCount := layout.identifiers.length
  let dataCount := layout.dataFields.length
  if beacon.ids.length ≠ idCount then return .error (.identifierCount idCount beacon.ids.length)
  else if beacon.data.length ≠ dataCount then
    return .error (.dataCount dataCount beacon.data.length)
  else
    let length := min (layout.lastOffset + 1) (size - 1)
    writeFields size beacon.txPower layout.fields beacon.ids beacon.data
      (List.replicate (length - headerLength) 0)

variable {size}

theorem ofRange_eq_ok (buffer : Bytes) (start stop : Nat) (order : ByteOrder) :
    ofRange buffer start stop order = .ok (Identifier.ofRange buffer start stop order) := by
  unfold ofRange Identifier.ofRange
  by_cases valid : start < stop ∧ stop ≤ buffer.length
  · have nonempty : order.arrange (buffer.extract start stop) ≠ [] := by
      rw [← List.length_pos_iff, ByteOrder.length_arrange, List.extract_eq_take_drop,
        List.length_take, List.length_drop]
      omega
    rw [if_neg (by omega), dif_pos valid, slice_eq_ok (by omega) valid.2, ok_bind,
      identifier_eq_ok nonempty]
    rfl
  · rw [if_pos (by omega), dif_neg valid]
    rfl

section Decoding

variable {data : Bytes} {align : Nat} (countable : data.length + 1 < size)

include countable

theorem fieldBytes_eq_ok {place : Place} (inside : align + place.span.last < data.length) :
    fieldBytes size data align place = .ok (place.read data align) := by
  have ordered := place.span.first_le_last
  rw [fieldBytes, add_eq_ok (by omega), ok_bind, add_eq_ok (by omega), ok_bind,
    add_eq_ok (by omega), ok_bind, slice_eq_ok (by omega) (by omega),
    Place.read_eq_arrange_extract]
  rfl

/-- Each identifier field has at least one byte in the data. -/
theorem readFields_eq_ok {fields : List Field}
    (inside : ∀ field ∈ fields, align + field.place.span.last < data.length) :
    ∃ ids, (fields.filterMap Field.identifier?).mapM (·.readIdentifier? data align) = some ids ∧
      readFields size data align fields =
        .ok (ids, (fields.filterMap Field.data?).map fun place =>
          Bytes.word (place.read data align)) := by
  induction fields with
  | nil => exact ⟨[], rfl, rfl⟩
  | cons field fields ih =>
    obtain ⟨ids, reads, later⟩ :=
      ih fun other member => inside other (List.mem_cons_of_mem _ member)
    cases field with
    | identifier place =>
      have first : align + place.span.last < data.length := inside _ List.mem_cons_self
      have nonempty : place.read data align ≠ [] := Place.read_ne_nil first
      refine ⟨⟨place.read data align, nonempty⟩ :: ids, ?_, ?_⟩
      · change List.mapM _ (place :: fields.filterMap Field.identifier?) = _
        rw [List.mapM_cons, reads, Place.readIdentifier?, dif_pos nonempty]
        rfl
      · rw [readFields, fieldBytes_eq_ok countable first, ok_bind, identifier_eq_ok nonempty,
          ok_bind, later]
        rfl
    | data place =>
      have first : align + place.span.last < data.length := inside _ List.mem_cons_self
      refine ⟨ids, reads, ?_⟩
      rw [readFields, fieldBytes_eq_ok countable first, ok_bind, later]
      rfl
    | matcher pattern | power span | service pattern => exact ⟨ids, reads, later⟩

omit countable

theorem mapM_service_eq_ok {source : String} {layout : Layout}
    (compiled : Layout.compile source = .ok layout) :
    layout.service.mapM (fun pattern => uuid (Bytes.word pattern.expected)) =
      .ok layout.serviceUuid := by
  rw [Layout.serviceUuid]
  cases present : layout.service with
  | none => rfl
  | some pattern =>
    have small := Layout.value_service_lt compiled present
    have word : (Bytes.word pattern.expected).toNat < UInt32.size := by
      rw [Bytes.toNat_word]
      exact Nat.lt_of_le_of_lt (Nat.mod_le _ _) small
    rw [Option.mapM_some, uuid_eq_ok word]
    rfl

include countable

theorem decode_eq_ok {source : String} {layout : Layout}
    (compiled : Layout.compile source = .ok layout) (reception : Reception) :
    decode size layout data reception = .ok (layout.decode data reception) := by
  unfold decode Layout.decode
  cases layout.alignment? data with
  | none => rfl
  | some align =>
    dsimp only [Option.bind_eq_bind, Option.bind_some]
    by_cases inside : align + layout.lastOffset < data.length
    · have fields : ∀ field ∈ layout.fields, align + field.place.span.last < data.length := by
        intro field member
        have last := Layout.le_lastOffset member
        omega
      have power : align + layout.power.last < data.length :=
        fields _ (Layout.wellFormed_of_compile compiled).power_mem
      obtain ⟨ids, reads, done⟩ := readFields_eq_ok countable fields
      rw [add_eq_ok (by omega)]
      dsimp only
      rw [if_pos inside, if_pos inside, done, ok_bind]
      dsimp only
      rw [fieldBytes_eq_ok countable power, ok_bind, mapM_service_eq_ok compiled, ok_bind,
        Layout.readAt, Layout.identifiers, reads]
      rfl
    · rw [if_neg inside, add]
      by_cases counted : align + layout.lastOffset < size
      · rw [if_pos counted]
        exact if_neg inside
      · rw [if_neg counted]
        rfl

end Decoding

/-- A field that is read beyond the end of the data is at fault. -/
example : fieldBytes (2 ^ 16) [0xbe, 0xac] 1 ⟨.behind 0 1, .big⟩ = .error (.slice 1 3 2) := by rfl

section Encoding

theorem fit_eq_ok (width : Nat) (bytes : Bytes) :
    fit width bytes = .ok (Bytes.fit width bytes) := by
  unfold fit
  split
  · rename_i wide
    have all : bytes.length - (bytes.length - width) = width := by omega
    rw [sub_eq_ok wide, ok_bind, slice_eq_ok (Nat.sub_le _ _) (Nat.le_refl _),
      Bytes.fit_of_le_length wide, List.extract_eq_take_drop, all,
      List.take_of_length_le (by rw [List.length_drop, all])]
  · rename_i narrow
    rw [sub_eq_ok (by omega), ok_bind, Bytes.fit_of_length_le (by omega)]
    rfl

variable {txPower : Int8} {ids : List Identifier} {numbers : List UInt64} {fields : List Field}
  {field : Field} {payload value : Bytes}

theorem patches_cons : Field.patches txPower (field :: fields) ids numbers =
    ((deal txPower field ids numbers).1.map field.place.patch).toList ++
      Field.patches txPower fields (deal txPower field ids numbers).2.1
        (deal txPower field ids numbers).2.2 := by
  cases field with
  | identifier place => cases ids <;> rfl
  | data place => cases numbers <;> rfl
  | _ => rfl

theorem isPayload_of_deal (dealt : (deal txPower field ids numbers).1 = some value) :
    field.isPayload := by
  cases field <;> first | rfl | cases dealt

variable (large : maxOffset + 1 < size)

include large

theorem writeField_eq_ok (last : field.place.span.last ≤ maxOffset)
    (behind : headerLength ≤ field.place.span.first)
    (room : field.place.span.last + 1 ≤ payload.length + headerLength) :
    writeField size field value payload = .ok ((field.place.patch value).apply payload) := by
  have ends := field.place.span.first_add_width
  have length : (field.place.order.arrange (Bytes.fit field.place.span.width value)).length =
      field.place.span.first - headerLength + field.place.span.width -
        (field.place.span.first - headerLength) := by
    rw [ByteOrder.length_arrange, Bytes.length_fit, Nat.add_sub_cancel_left]
  rw [writeField, width_eq_ok (by omega), ok_bind, fit_eq_ok, ok_bind, sub_eq_ok behind, ok_bind,
    add_eq_ok (by omega), ok_bind, replace_eq_ok (Nat.le_add_right _ _) (by omega) length]
  rfl

/-- Up to the first field that starts in the header, each field is written as a patch. -/
theorem writeFields_eq_ok
    (room : ∀ field ∈ fields, field.place.span.last ≤ maxOffset ∧
      field.place.span.last + 1 ≤ payload.length + headerLength) :
    writeFields size txPower fields ids numbers payload =
      .ok (match fields.find? Field.isInHeader with
        | some field => .error (.fieldInHeader field.place.span.first)
        | none => .ok ((Field.patches txPower fields ids numbers).foldl Patch.apply payload)) := by
  induction fields generalizing ids numbers payload with
  | nil => rfl
  | cons field fields ih =>
    obtain ⟨last, fits⟩ := room field List.mem_cons_self
    have later : ∀ other ∈ fields, _ :=
      fun other member => room other (List.mem_cons_of_mem _ member)
    rw [writeFields]
    by_cases header : field.isInHeader
    · rw [if_pos header, List.find?_cons_of_pos header]
      rfl
    · rw [if_neg header, List.find?_cons_of_neg header, patches_cons]
      cases dealt : (deal txPower field ids numbers).1 with
      | none =>
        simp only [dealt]
        exact ih later
      | some value =>
        have behind : headerLength ≤ field.place.span.first := by
          rw [Field.isInHeader_iff, not_and, Nat.not_lt] at header
          exact header (isPayload_of_deal dealt)
        have ends := field.place.span.first_add_width
        have within : (field.place.patch value).Fits payload.length := by
          refine ⟨behind, ?_⟩
          simp only [Place.patch, ByteOrder.length_arrange, Bytes.length_fit]
          omega
        simp only [dealt]
        rw [writeField_eq_ok large last behind fits, ok_bind, ih]
        · rfl
        · rw [Patch.length_apply within]
          exact later

theorem encode_eq_ok {source : String} {layout : Layout}
    (compiled : Layout.compile source = .ok layout) (beacon : Beacon) :
    encode size layout beacon = .ok (layout.encode beacon) := by
  have wf := Layout.wellFormed_of_compile compiled
  have highest : layout.lastOffset ≤ maxOffset :=
    Layout.lastOffset_le fun field member => (wf.fields field member).last_le
  have length : min (layout.lastOffset + 1) (size - 1) - headerLength = layout.payloadLength := by
    rw [Nat.min_eq_left (by omega), Layout.payloadLength]
  unfold encode Layout.encode
  dsimp only
  rw [length, writeFields_eq_ok large]
  · split
    · rfl
    · split
      · rfl
      · rfl
  · intro field member
    have last := Layout.le_lastOffset member
    rw [List.length_replicate, Layout.payloadLength]
    unfold headerLength
    omega

end Encoding

end Proximity.Guarded
