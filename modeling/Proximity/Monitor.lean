import Proximity.Advertisement.Summary
import Proximity.Host.Command.Text
import Proximity.Host.LineReader
import Proximity.Layout.Decode
import Proximity.Layout.Known
import Proximity.MacAddress
import Proximity.SignalWindow
import Proximity.Tracker

/-! A monitor of beacons: advertisements come in from the radio and commands from the host, and
reports go out to the host. -/

namespace Proximity

/-- An advertisement as the radio delivers it. -/
structure Received where
  mac : MacAddress
  data : Bytes
  rssi : Int16
  /-- The name of the device, if the radio knows it. -/
  name : Option String

structure Monitor where
  /-- The layouts that are tried, in order. -/
  layouts : List Layout
  config : Config
  reader : LineReader
  signal : SignalWindow
  /-- The regions that are occupied. -/
  regions : Tracker
  /-- The beacons that are visible. -/
  objects : Tracker

/-- What came and what went since the last report, and what is visible. -/
structure Report where
  entered : List Region
  exited : List Region
  visible : List Beacon

namespace Report

/-- The messages that make up the report: arrivals, departures and visible beacons. -/
def messages (report : Report) (time : UInt32) : List Message :=
  report.entered.map (fun region => .enter region.name time) ++
    report.exited.map (fun region => .exit region.name time) ++
    report.visible.filterMap fun beacon => (BeaconReport.ofBeacon? beacon time).map .beacon

/-- The lines of those messages that fit one. -/
def lines (report : Report) (time : UInt32) : List Bytes :=
  (report.messages time).filterMap (Message.line? Message.maxLength)

end Report

namespace Monitor

/-- A monitor that has received nothing yet. -/
def ofLayouts (layouts : List Layout) (regions : List Region) (config : Config) : Monitor where
  layouts
  config
  reader := {}
  signal := .ofLength config.rssiWindow
  regions := (Tracker.ofMode .region regions).setExpiration config.regionExpiration
  objects := Tracker.ofBeacons.setExpiration config.objectExpiration

/-- A monitor of the well-known beacon types. -/
def ofKnownLayouts (regions : List Region) (config : Config) : Except LayoutError Monitor := do
  return ofLayouts (← KnownLayout.compileAll) regions config

/-- The monitor with other settings, which hold for what it has received too. -/
def setConfig (monitor : Monitor) (config : Config) : Monitor :=
  { monitor with
    config
    signal := monitor.signal.setLength config.rssiWindow
    regions := monitor.regions.setExpiration config.regionExpiration
    objects := monitor.objects.setExpiration config.objectExpiration }

/-- The monitor after a command, and whether the host asks for a status message. -/
def applyCommand (monitor : Monitor) (command : Command) : Monitor × Bool :=
  (monitor.setConfig (command.apply monitor.config), command.asksStatus)

/-- The monitor after a line of the host, and whether the host asks for a status message. A line
that states no command is ignored. -/
def applyLine (monitor : Monitor) (line : Bytes) : Monitor × Bool :=
  match Command.read? line with
  | some command => monitor.applyCommand command
  | none => (monitor, false)

/-- The monitor after bytes of the host, and whether the host asks for a status message. -/
def feed (monitor : Monitor) (bytes : Bytes) : Monitor × Bool :=
  let (reader, lines) := monitor.reader.feedAll bytes
  lines.foldl (fun (monitor, asked) line =>
      let (monitor, asks) := monitor.applyLine line
      (monitor, asked || asks))
    ({ monitor with reader }, false)

/-- The beacon in an advertisement. Every layout is tried on the whole data, then on the structure
with a company code, then on the one with data of a service. -/
def decode (monitor : Monitor) (received : Received) : Option Beacon :=
  let summary := Summary.ofBytes received.data
  let reception : Reception :=
    ⟨received.rssi, some received.mac.text, received.name <|> summary.name⟩
  let parts := received.data ::
    (summary.manufacturer.toList ++ summary.serviceData.toList).map AdStructure.toBytes
  parts.findSome? fun data =>
    monitor.layouts.findSome? fun layout => layout.decode data reception

/-- The monitor after an advertisement, and the beacon in it with its mean signal strength. -/
def process (monitor : Monitor) (now : Nanoseconds) (received : Received) :
    Monitor × Option Beacon :=
  if !monitor.config.admits received.rssi then (monitor, none)
  else match monitor.decode received with
    | none => (monitor, none)
    | some beacon =>
      let (signal, readings) := monitor.signal.add now received.mac.text received.rssi
      let beacon := { beacon with averageRssi := some (Reading.mean readings) }
      ({ monitor with
          signal
          regions := (monitor.regions.track now beacon).1
          objects := (monitor.objects.track now beacon).1 },
        some beacon)

/-- The monitor without stale regions, beacons and readings. -/
def purge (monitor : Monitor) (now : Nanoseconds) : Monitor :=
  { monitor with
    regions := (monitor.regions.purge now).1
    objects := (monitor.objects.purge now).1
    signal := monitor.signal.purge now }

/-- The monitor as after a report, and the report. -/
def report (monitor : Monitor) : Monitor × Report :=
  let (regions, entered, exited) := monitor.regions.take
  ({ monitor with regions, objects := monitor.objects.clear },
    { entered := entered.filterMap Subject.region?
      exited := exited.filterMap Subject.region?
      visible := monitor.objects.visibleBeacons })

/-- The latest sightings of the visible beacons. -/
def visibleBeacons (monitor : Monitor) : List Beacon := monitor.objects.visibleBeacons

/-- The regions that are occupied. -/
def occupiedRegions (monitor : Monitor) : List Region := monitor.regions.visibleRegions

/-- A count, or the greatest number that a message has room for. -/
def saturate (count : Nat) : UInt16 := UInt16.ofNat (min count (UInt16.size - 1))

/-- The status message of a monitor that runs for `uptime` seconds. -/
def status (monitor : Monitor) (uptime : UInt32) : Message :=
  .status monitor.config.scanning uptime (saturate monitor.objects.liveCount)
    (saturate monitor.regions.liveCount) version

end Monitor

end Proximity
