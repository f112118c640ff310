import Proximity.Region

/-! What presence is tracked of: regions and beacons. -/

namespace Proximity

/-- A region that is occupied, or the latest sighting of a beacon. -/
inductive Subject
  | region (region : Region)
  | beacon (beacon : Beacon)

/-- The name of a region, or the identity of a beacon. -/
inductive SubjectKey
  | region (name : String)
  | beacon (ids : List Identifier)
deriving DecidableEq

/-- Regions come before beacons, regions in the order of their names and beacons in that of their
identifiers. -/
instance : Ord SubjectKey where
  compare
    | .region a, .region b => compare a b
    | .region _, .beacon _ => .lt
    | .beacon _, .region _ => .gt
    | .beacon a, .beacon b => compare a b

namespace Subject

/-- What tells the subject from others. -/
def key : Subject → SubjectKey
  | .region r => .region r.name
  | .beacon b => .beacon b.ids

def region? : Subject → Option Region
  | .region r => some r
  | .beacon _ => none

def beacon? : Subject → Option Beacon
  | .region _ => none
  | .beacon b => some b

/-- The kind of subject and what tells it from others. -/
def text : Subject → String
  | .region r => s!"region {r.name}"
  | .beacon b => "beacon" ++ String.join (b.ids.map fun id => s!" {id.text}")

end Subject

end Proximity
