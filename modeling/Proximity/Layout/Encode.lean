import Proximity.Beacon
import Proximity.Layout

/-! Writing a beacon as the payload that follows the company code or service UUID. -/

namespace Proximity

/-- The number of bytes that the company code or service UUID takes. -/
def headerLength : Nat := 2

/-- The most bytes that an AD structure can have for a body. Its length byte counts the type too. -/
def maxBodyLength : Nat := 254

/-- Why a beacon cannot be advertised with a layout. -/
inductive EncodeError
  | identifierCount (expected actual : Nat)
  | dataCount (expected actual : Nat)
  | fieldInHeader (offset : Nat)
  | bodyTooLong (length : Nat)
deriving DecidableEq

def EncodeError.message : EncodeError → String
  | .identifierCount expected actual =>
    s!"layout has {expected} identifier fields but record has {actual}"
  | .dataCount expected actual => s!"layout has {expected} data fields but record has {actual}"
  | .fieldInHeader offset => s!"field at offset {offset} overlaps the company code"
  | .bodyTooLong length => s!"AD section of {length} bytes does not fit a length byte"

/-- Bytes to be written from an offset on. -/
structure Patch where
  offset : Nat
  bytes : Bytes
deriving DecidableEq

/-- The bytes of a value as they are transmitted at the place. -/
def Place.patch (place : Place) (value : Bytes) : Patch :=
  ⟨place.span.first, place.order.arrange (Bytes.fit place.span.width value)⟩

/-- The field belongs to the payload and starts before it. -/
def Field.isInHeader : Field → Bool
  | .service _ => false
  | field => field.place.span.first < headerLength

/-- What each field writes, the identifiers and data being dealt out in order. A service UUID is no
part of the payload. -/
def Field.patches (txPower : Int8) : List Field → List Identifier → List UInt64 → List Patch
  | .matcher pattern :: fields, ids, numbers =>
    (Field.matcher pattern).place.patch pattern.expected :: patches txPower fields ids numbers
  | .power span :: fields, ids, numbers =>
    (Field.power span).place.patch [txPower.toUInt8] :: patches txPower fields ids numbers
  | .identifier place :: fields, id :: ids, numbers =>
    place.patch id.bytes :: patches txPower fields ids numbers
  | .data place :: fields, ids, n :: numbers =>
    place.patch (Bytes.ofNat 8 n.toNat) :: patches txPower fields ids numbers
  | _ :: fields, ids, numbers => patches txPower fields ids numbers
  | [], _, _ => []

/-- A payload with a patch, whose offset counts from the header, written over it. -/
def Patch.apply (payload : Bytes) (patch : Patch) : Bytes :=
  Bytes.overwrite payload (patch.offset - headerLength) patch.bytes

namespace Layout

/-- The number of bytes from the end of the header to the last field. -/
def payloadLength (layout : Layout) : Nat := layout.lastOffset + 1 - headerLength

/-- The payload that advertises the beacon. A value that is longer than its field loses its most
significant bytes, and of fields that overlap the later one is written over the earlier. -/
def encode (layout : Layout) (beacon : Beacon) : Except EncodeError Bytes :=
  let idCount := layout.identifiers.length
  let dataCount := layout.dataFields.length
  if beacon.ids.length ≠ idCount then .error (.identifierCount idCount beacon.ids.length)
  else if beacon.data.length ≠ dataCount then .error (.dataCount dataCount beacon.data.length)
  else match layout.fields.find? Field.isInHeader with
    | some field => .error (.fieldInHeader field.place.span.first)
    | none =>
      .ok ((Field.patches beacon.txPower layout.fields beacon.ids beacon.data).foldl Patch.apply
        (List.replicate layout.payloadLength 0))

end Layout

end Proximity
