import Proximity.Beacon
import Proximity.Identifier.Text

/-! Regions: groups of beacons that share leading identifiers or a device address. -/

namespace Proximity

/-- The beacons that agree with every identifier that is given and with the address, if one is. -/
structure Region where
  /-- The name by which the region is known. -/
  name : String
  id1 : Option Identifier := none
  id2 : Option Identifier := none
  id3 : Option Identifier := none
  address : Option String := none
deriving DecidableEq

namespace Region

/-- The identifiers that are asked for, with `none` for any. -/
def slots (region : Region) : List (Option Identifier) := [region.id1, region.id2, region.id3]

/-- Two regions count as one if their names agree, whatever they ask for. -/
def sameAs (a b : Region) : Bool := a.name = b.name

/-- Nothing is asked for, or the very value that is given. -/
def admits {α : Type} [DecidableEq α] (expected given : Option α) : Bool :=
  expected.isNone || given = expected

def holds (region : Region) (beacon : Beacon) : Bool :=
  admits region.id1 beacon.ids[0]? && admits region.id2 beacon.ids[1]? &&
    admits region.id3 beacon.ids[2]? && admits region.address beacon.address

def text (region : Region) : String :=
  let slot (n : Nat) (id : Option Identifier) := s!" id{n}: " ++ (id.map Identifier.text).getD "*"
  region.name ++ slot 1 region.id1 ++ slot 2 region.id2 ++ slot 3 region.id3 ++
    (region.address.map fun address => s!" mac: {address}").getD ""

end Region

end Proximity
