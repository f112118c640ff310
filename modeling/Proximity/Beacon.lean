import Proximity.Identifier

/-! Sightings of beacons. -/

namespace Proximity

/-- A sighting of a beacon, or what a beacon is to advertise. -/
structure Beacon where
  /-- The identity of the beacon, most significant part first. -/
  ids : List Identifier
  ids_ne_nil : ids ≠ []
  /-- The signal strength at one metre, in dBm. -/
  txPower : Int8
  /-- The signal strength at which the beacon was received, in dBm. -/
  rssi : Int16
  data : List UInt64 := []
  /-- The mean of the latest signal strengths. -/
  averageRssi : Option Float := none
  typeCode : UInt64 := 0
  manufacturer : UInt16 := 0
  serviceUuid : Option UInt32 := none
  address : Option String := none
  name : Option String := none

/-- The beacon has no identity. -/
inductive BeaconError
  | noIdentifiers
deriving DecidableEq

def BeaconError.message : BeaconError → String
  | .noIdentifiers => "a beacon record needs at least one identifier"

/-- There is nothing to estimate the distance with. -/
inductive DistanceError
  | noModel
deriving DecidableEq

def DistanceError.message : DistanceError → String
  | .noModel => "no distance calculator configured"

/-- Estimates a distance in metres from the signal strength at one metre and a received one. -/
abbrev DistanceModel := Int8 → Float → Float

namespace Beacon

/-- A beacon with the given identity. -/
def ofIds (ids : List Identifier) (txPower : Int8) (rssi : Int16) : Except BeaconError Beacon :=
  if h : ids ≠ [] then .ok { ids, ids_ne_nil := h, txPower, rssi } else .error .noIdentifiers

/-- Two sightings are of one beacon if their identifiers agree, whatever else differs. -/
def sameAs (a b : Beacon) : Bool := a.ids = b.ids

/-- The distance that `model` estimates from the mean signal strength or, where there is none, from
that of this sighting. -/
def distance (beacon : Beacon) : Option DistanceModel → Except DistanceError Float
  | none => .error .noModel
  | some model =>
    .ok (model beacon.txPower (beacon.averageRssi.getD (Float.ofInt beacon.rssi.toInt)))

end Beacon

end Proximity
