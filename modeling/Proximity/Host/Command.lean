import Proximity.Config

/-! Commands of the host. -/

namespace Proximity

inductive Command
  /-- Advertisements are to be processed. -/
  | start
  /-- Advertisements are to be ignored. -/
  | stop
  /-- A status message is asked for. -/
  | status
  | setRssi (minRssi : Int16)
  | setWindow (windowMs : UInt32)
deriving DecidableEq

namespace Command

def apply (config : Config) : Command → Config
  | .start => { config with scanning := true }
  | .stop => { config with scanning := false }
  | .status => config
  | .setRssi minRssi => { config with minRssi }
  | .setWindow windowMs => { config with rssiWindowMs := windowMs }

def asksStatus (command : Command) : Bool := command = .status

end Command

end Proximity
