import Proximity.Time

/-! The settings of a monitor. -/

namespace Proximity

/-- What the host can change while a monitor runs. -/
structure Config where
  /-- The weakest signal, in dBm, that is not ignored. -/
  minRssi : Int16 := -100
  /-- How long a signal strength counts towards the mean. -/
  rssiWindowMs : UInt32 := 20000
  /-- How long a region stays occupied without a sighting. -/
  regionExpirationMs : UInt32 := 30000
  /-- How long a beacon stays visible without a sighting. -/
  objectExpirationMs : UInt32 := 5000
  /-- Advertisements are processed at all. -/
  scanning : Bool := true
deriving DecidableEq

namespace Config

/-- An advertisement of the given signal strength is to be processed. -/
def admits (config : Config) (rssi : Int16) : Bool := config.scanning && config.minRssi ≤ rssi

def rssiWindow (config : Config) : Nanoseconds := milliseconds config.rssiWindowMs.toNat

def regionExpiration (config : Config) : Nanoseconds :=
  milliseconds config.regionExpirationMs.toNat

def objectExpiration (config : Config) : Nanoseconds :=
  milliseconds config.objectExpirationMs.toNat

end Config

end Proximity
