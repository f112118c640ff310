import Proximity.Config
import Proximity.Table

/-! The mean signal strength of each device over the latest stretch of time. -/

namespace Proximity

/-- A signal strength in dBm and when it was received. -/
structure Reading where
  time : Nanoseconds
  rssi : Int16
deriving DecidableEq

namespace Reading

/-- The readings no older than `length` at the time `now`. -/
def recent (length now : Nanoseconds) (readings : List Reading) : List Reading :=
  readings.filter fun r => now - r.time ≤ length

def total (readings : List Reading) : Int :=
  readings.foldl (fun total reading => total + reading.rssi.toInt) 0

/-- The mean of the signal strengths, and zero if there are none. -/
def mean (readings : List Reading) : Float :=
  if readings.isEmpty then 0.0 else Float.ofInt (total readings) / Float.ofNat readings.length

end Reading

/-- The readings of each device that were not yet found to be too old. -/
structure SignalWindow where
  /-- The age at which a reading stops to count. -/
  length : Nanoseconds
  readings : Table String (List Reading)

namespace SignalWindow

def ofLength (length : Nanoseconds) : SignalWindow := ⟨length, Table.empty⟩

/-- The length of a window, unless told otherwise. -/
def usualLength : Nanoseconds := Config.rssiWindow {}

/-- The window with a reading of a device, and the readings of the device that count then. -/
def add (window : SignalWindow) (now : Nanoseconds) (device : String) (rssi : Int16) :
    SignalWindow × List Reading :=
  let held := (window.readings.get? device).getD []
  let counting := Reading.recent window.length now (held ++ [⟨now, rssi⟩])
  ({ window with readings := window.readings.insert device counting }, counting)

/-- The readings of a device that count, and the window without those that do not. -/
def look (window : SignalWindow) (now : Nanoseconds) (device : String) :
    SignalWindow × List Reading :=
  match window.readings.get? device with
  | none => (window, [])
  | some held =>
    let counting := Reading.recent window.length now held
    let readings := if counting.isEmpty then window.readings.erase device
      else window.readings.insert device counting
    ({ window with readings }, counting)

/-- The window without the readings that do not count. -/
def purge (window : SignalWindow) (now : Nanoseconds) : SignalWindow :=
  let counting := window.readings.map (Reading.recent window.length now)
  { window with readings := counting.filter fun _ readings => !readings.isEmpty }

/-- The window with another length. The next look at a reading judges it by the new one. -/
def setLength (window : SignalWindow) (length : Nanoseconds) : SignalWindow :=
  { window with length }

def deviceCount (window : SignalWindow) : Nat := window.readings.size

end SignalWindow

end Proximity
