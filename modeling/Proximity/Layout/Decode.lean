import Proximity.Beacon
import Proximity.Layout

/-! Reading a beacon from advertised bytes. A layout does not say where in the data the company code
or service UUID lies; it is looked for at a few places. -/

namespace Proximity

/-- How an advertisement was received. -/
structure Reception where
  rssi : Int16
  address : Option String := none
  name : Option String := none
deriving DecidableEq

/-- The places at which the company code or service UUID may start, in the order of trial: from
behind the header of a first AD structure to behind that of one which follows three bytes of
flags. -/
def alignments : List Nat := [2, 3, 4, 5]

/-- The bytes at the place in data aligned at `align`, most significant first. -/
def Place.read (place : Place) (data : Bytes) (align : Nat) : Bytes :=
  place.order.arrange ((data.drop (align + place.span.first)).take place.span.width)

/-- The identifier at the place in data aligned at `align`, if any byte of it lies in the data. -/
def Place.readIdentifier? (place : Place) (data : Bytes) (align : Nat) : Option Identifier :=
  if h : place.read data align ≠ [] then some ⟨place.read data align, h⟩ else none

/-- The expected bytes are found in data aligned at `align`. -/
def Pattern.occursAt (pattern : Pattern) (order : ByteOrder) (data : Bytes) (align : Nat) : Bool :=
  Bytes.slice? data (align + pattern.span.first) pattern.expected.length ==
    some (order.arrange pattern.expected)

namespace Layout

/-- The data can be read with the layout from `align` on. A service UUID is transmitted with its
least significant byte first. -/
def occursAt (layout : Layout) (data : Bytes) (align : Nat) : Bool :=
  layout.matcher.occursAt .big data align && layout.service.all (·.occursAt .little data align)

/-- The first place from which the data can be read with the layout. -/
def alignment? (layout : Layout) (data : Bytes) : Option Nat :=
  alignments.find? (layout.occursAt data)

/-- The company code or the low half of the service UUID in data aligned at `align`, and zero where
the data ends before it. -/
def manufacturerAt (data : Bytes) (align : Nat) : UInt16 :=
  match Bytes.slice? data align 2 with
  | some code => (Bytes.word (ByteOrder.little.arrange code)).toUInt16
  | none => 0

/-- The beacon in data aligned at `align`, if it has all its identifiers. -/
def readAt (layout : Layout) (data : Bytes) (reception : Reception) (align : Nat) :
    Option Beacon := do
  let ids ← layout.identifiers.mapM (·.readIdentifier? data align)
  let power := Bytes.word (Place.read ⟨layout.power, .big⟩ data align)
  let beacon ← (Beacon.ofIds ids power.toUInt8.toInt8 reception.rssi).toOption
  return { beacon with
    data := layout.dataFields.map fun place => Bytes.word (place.read data align)
    typeCode := layout.typeCode
    manufacturer := manufacturerAt data align
    serviceUuid := layout.serviceUuid
    address := reception.address
    name := reception.name }

/-- The beacon that the data advertises, if it is one of this layout and complete. -/
def decode (layout : Layout) (data : Bytes) (reception : Reception) : Option Beacon := do
  let align ← layout.alignment? data
  if align + layout.lastOffset < data.length then layout.readAt data reception align else none

end Layout

end Proximity
