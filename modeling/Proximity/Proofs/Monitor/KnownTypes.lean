import Proximity.Proofs.Advertisement.Summary
import Proximity.Proofs.Layout.Misreading
import Proximity.Proofs.Monitor.Recognition

/-! What a monitor of the well-known beacon types makes of an advertisement with one of their
layouts, behind flags or none and before any other AD structures. It reports a beacon, and the right
one unless a type is found where none was meant or, for a beacon that is advertised under a service
UUID, some structure behind it is a beacon too. -/

namespace Proximity

namespace Layout

end Layout

namespace Summary

open AdStructure

end Summary

namespace Monitor

open Layout

section Mistaken

variable {sent : Beacon} {flags : Option UInt8} {after : List AdStructure}

end Mistaken

section Known

variable {monitor : Monitor} {sent : Beacon} (knows : monitor.layouts = known) (mac : MacAddress)
  (rssi : Int16) (name : Option String) (flags : Option UInt8) (after : List AdStructure)

include knows

end Known

/-- A short text as the name of a device. -/
def named : AdStructure := ⟨AdStructure.fullNameKind, [0x61], by decide⟩

end Monitor

end Proximity
