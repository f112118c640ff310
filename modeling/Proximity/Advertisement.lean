import Proximity.Advertisement.Structure

/-! Framing a payload for transmission. -/

namespace Proximity

/-- A payload under the code of a company or under the UUID of a service. -/
inductive Advertisement
  | manufacturer (company : UInt16) (payload : Bytes)
  | service (uuid : UInt32) (payload : Bytes)
deriving DecidableEq

namespace Advertisement

/-- The payload behind the code or UUID. -/
def payload : Advertisement → Bytes
  | .manufacturer _ payload | .service _ payload => payload

/-- A service UUID as it is transmitted, in two bytes if they suffice and else in four. -/
def uuidBytes (uuid : UInt32) : Bytes :=
  ByteOrder.little.arrange (Bytes.ofNat (if uuid.toNat < UInt16.size then 2 else 4) uuid.toNat)

/-- The AD structures to transmit: one with the company code and the payload, or one that lists the
service UUID and one with the UUID and the payload. -/
def structures : Advertisement → Except EncodeError (List AdStructure)
  | .manufacturer company payload => do
    let code := ByteOrder.little.arrange (Bytes.ofNat 2 company.toNat)
    return [← AdStructure.ofBody AdStructure.manufacturerKind (code ++ payload)]
  | .service uuid payload => do
    let short := uuid.toNat < UInt16.size
    let listKind := if short then AdStructure.allUuids16Kind else AdStructure.allUuids32Kind
    let dataKind := if short then AdStructure.serviceData16Kind else AdStructure.serviceData32Kind
    let listed ← AdStructure.ofBody listKind (uuidBytes uuid)
    let data ← AdStructure.ofBody dataKind (uuidBytes uuid ++ payload)
    return [listed, data]

def toBytes (advertisement : Advertisement) : Except EncodeError Bytes := do
  return (← advertisement.structures).flatMap AdStructure.toBytes

end Advertisement

/-- The advertisement of a beacon: under the layout's service UUID if it has one, and else under the
company code of the beacon. It can be transmitted. -/
def Layout.advertise (layout : Layout) (beacon : Beacon) : Except EncodeError Advertisement := do
  let payload ← layout.encode beacon
  let advertisement := match layout.serviceUuid with
    | some uuid => .service uuid payload
    | none => .manufacturer beacon.manufacturer payload
  let _ ← advertisement.structures
  return advertisement

end Proximity
