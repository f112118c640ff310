import Proximity.Config
import Proximity.Table
import Proximity.Tracker.Subject

/-! Presence of regions or beacons. A subject is present from a sighting until a purge finds that it
was not sighted for longer than the expiration. Arrivals and departures are kept until they are
taken for a report. -/

namespace Proximity

/-- Whether regions or beacons are tracked. -/
inductive Tracker.Mode
  | region
  | object
deriving DecidableEq

namespace Tracker.Mode

/-- How long a subject stays present without a sighting, unless told otherwise. -/
def expiration : Mode → Nanoseconds
  | .region => Config.regionExpiration {}
  | .object => Config.objectExpiration {}

def text : Mode → String
  | .region => "region"
  | .object => "object"

end Tracker.Mode

/-- A subject that is present, as it was last sighted. -/
structure Presence where
  subject : Subject
  lastSeen : Nanoseconds

/-- The subjects that are present, and which of them came and went since the last report. -/
structure Tracker where
  mode : Tracker.Mode
  /-- The regions outside of which nothing is tracked. -/
  regions : List Region
  /-- How long a subject stays present without a sighting. -/
  expiration : Nanoseconds
  live : Table SubjectKey Presence := Table.empty
  /-- The subjects that came, each once, in the order of their first arrivals. -/
  entered : List Subject := []
  /-- The subjects that went, each once, in the order of their first departures. -/
  exited : List Subject := []

namespace Tracker

/-- A tracker in which nothing is present yet. -/
def ofMode (mode : Mode) (regions : List Region) : Tracker :=
  { mode, regions, expiration := mode.expiration }

/-- The name of the region that holds every beacon. -/
def allBeaconsName : String := "all-beacons"

def ofBeacons : Tracker := ofMode .object [{ name := allBeaconsName }]

/-- The subjects with one more, unless it is among them. -/
def note (subjects : List Subject) (subject : Subject) : List Subject :=
  if subjects.any (·.key = subject.key) then subjects else subjects ++ [subject]

/-- What a sighting of the beacon is a sighting of. -/
def subjectsOf (tracker : Tracker) (beacon : Beacon) : List Subject :=
  let occupied := tracker.regions.filter (·.holds beacon)
  match tracker.mode with
  | .region => occupied.map .region
  | .object => if occupied.isEmpty then [] else [.beacon beacon]

/-- The tracker after a sighting of the subject. -/
def refresh (now : Nanoseconds) (tracker : Tracker) (subject : Subject) : Tracker :=
  { tracker with
    live := tracker.live.insert subject.key ⟨subject, now⟩
    entered := if (tracker.live.get? subject.key).isSome then tracker.entered
      else note tracker.entered subject }

/-- The tracker after a sighting of the beacon, and whether a region holds it. -/
def track (tracker : Tracker) (now : Nanoseconds) (beacon : Beacon) : Tracker × Bool :=
  let subjects := tracker.subjectsOf beacon
  (subjects.foldl (refresh now) tracker, !subjects.isEmpty)

/-- What is present, in the order of the keys. -/
def sorted (tracker : Tracker) : List (SubjectKey × Presence) :=
  tracker.live.entries.mergeSort fun a b => (compare a.1 b.1).isLE

/-- The subject was not sighted for longer than the expiration. -/
def isStale (tracker : Tracker) (now : Nanoseconds) (presence : Presence) : Bool :=
  tracker.expiration < now - presence.lastSeen

/-- The tracker without the stale subjects, and their number. -/
def purge (tracker : Tracker) (now : Nanoseconds) : Tracker × Nat :=
  let stale := tracker.sorted.filter fun (_, presence) => tracker.isStale now presence
  ({ tracker with
      live := tracker.live.filter fun _ presence => !tracker.isStale now presence
      exited := (stale.map (·.2.subject)).foldl note tracker.exited },
    stale.length)

/-- The tracker as after a report. -/
def clear (tracker : Tracker) : Tracker := { tracker with entered := [], exited := [] }

/-- The tracker as after a report, and what came and what went since the last one. -/
def take (tracker : Tracker) : Tracker × (List Subject × List Subject) :=
  (tracker.clear, tracker.entered, tracker.exited)

/-- The tracker with another expiration. The next purge goes by the new one. -/
def setExpiration (tracker : Tracker) (expiration : Nanoseconds) : Tracker :=
  { tracker with expiration }

/-- The subjects that are present, in the order of their keys. -/
def visible (tracker : Tracker) : List Subject := tracker.sorted.map (·.2.subject)

def visibleRegions (tracker : Tracker) : List Region := tracker.visible.filterMap Subject.region?

/-- The latest sightings of the beacons that are present. -/
def visibleBeacons (tracker : Tracker) : List Beacon := tracker.visible.filterMap Subject.beacon?

def liveCount (tracker : Tracker) : Nat := tracker.live.size

end Tracker

end Proximity
