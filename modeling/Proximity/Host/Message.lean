import Proximity.Host.Json.Writer
import Proximity.Region
import Proximity.Text.Utf8
import Proximity.Vendor

/-! Messages to the host, each a line of JSON. -/

namespace Proximity

/-- The version of the monitor that messages speak of. -/
def version : String := "0.1.0"

/-- What the host is told of a visible beacon. -/
structure BeaconReport where
  ids : List String
  mac : Option String
  name : Option String
  rssi : Int16
  /-- The mean signal strength in whole dBm. -/
  average : Option Int16
  txPower : Int8
  manufacturer : UInt16
  vendor : Option String
  typeCode : UInt64
  /-- The time of the report in milliseconds. -/
  time : UInt32
deriving DecidableEq

inductive Message
  | beacon (report : BeaconReport)
  /-- A region became occupied. -/
  | enter (region : String) (time : UInt32)
  /-- A region is no longer occupied. -/
  | exit (region : String) (time : UInt32)
  /-- The state of the monitor, with its uptime in seconds and the numbers of visible beacons and
  occupied regions. -/
  | status (scanning : Bool) (uptime : UInt32) (visible regions : UInt16) (version : String)
deriving DecidableEq

namespace BeaconReport

/-- The most identifiers that a report has. -/
def maxIds : Nat := 4

/-- The most bytes that the text of an identifier takes in a report. -/
def maxIdSize : Nat := 66

/-- The most bytes that an address takes in a report. -/
def maxAddressSize : Nat := 18

/-- The most bytes that a name takes in a report. -/
def maxNameSize : Nat := 33

/-- The texts of the identifiers, if a report has room for them. -/
def idTexts? (beacon : Beacon) : Option (List String) :=
  if beacon.ids.length ≤ maxIds ∧ ∀ id ∈ beacon.ids, Utf8.size id.chars ≤ maxIdSize then
    some (beacon.ids.map Identifier.text)
  else none

/-- The text, if it takes at most `most` bytes. -/
def bounded (most : Nat) (text : Option String) : Option String :=
  text.filter fun s => Utf8.size s.toList ≤ most

/-- A signal strength in whole dBm, a half rounded away from zero. One that is out of range gives
the nearest number in range, and one that is no number gives zero. -/
def wholeDbm (x : Float) : Int16 := (x + if x < 0.0 then -0.5 else 0.5).toInt16

/-- The report of a beacon, if there is room for its identifiers. An address or a name for which
there is no room is left out. -/
def ofBeacon? (beacon : Beacon) (time : UInt32) : Option BeaconReport := do
  let ids ← idTexts? beacon
  return {
    ids
    mac := bounded maxAddressSize beacon.address
    name := bounded maxNameSize beacon.name
    rssi := beacon.rssi
    average := beacon.averageRssi.map wholeDbm
    txPower := beacon.txPower
    manufacturer := beacon.manufacturer
    vendor := Vendor.name? beacon.manufacturer
    typeCode := beacon.typeCode
    time }

end BeaconReport

namespace Message

/-- The most bytes of a line that the monitor sends or reads. -/
def maxLength : Nat := 512

/-- A member whose value may be missing, and then is left out. -/
def optional {α : Type} (name : String) (value : Option α) (write : α → Json.Value) :
    List (String × Json.Value) :=
  value.toList.map fun a => (name, write a)

/-- The members of the object that states a message, in order. -/
def members : Message → List (String × Json.Value)
  | .beacon r =>
    [("type", .text "beacon"), ("ids", .texts r.ids)] ++ optional "mac" r.mac .text ++
      optional "name" r.name .text ++ [("rssi", .integer r.rssi.toInt)] ++
      optional "avg" r.average (fun n => .integer n.toInt) ++
      [("tx", .integer r.txPower.toInt), ("mfr", .integer r.manufacturer.toNat)] ++
      optional "vendor" r.vendor .text ++
      [("code", .integer r.typeCode.toNat), ("ts", .integer r.time.toNat)]
  | .enter region time =>
    [("type", .text "enter"), ("region", .text region), ("ts", .integer time.toNat)]
  | .exit region time =>
    [("type", .text "exit"), ("region", .text region), ("ts", .integer time.toNat)]
  | .status scanning uptime visible regions version =>
    [("type", .text "status"), ("scanning", .flag scanning), ("uptime", .integer uptime.toNat),
      ("visible", .integer visible.toNat), ("regions", .integer regions.toNat),
      ("version", .text version)]

/-- The text of a message. -/
def json (message : Message) : Bytes := Utf8.write (Json.write message.members)

/-- The line that carries a message, if it takes at most `most` bytes. -/
def line? (most : Nat) (message : Message) : Option Bytes :=
  let line := Utf8.write (Json.write message.members ++ ['\n'])
  if line.length ≤ most then some line else none

end Message

end Proximity
