import Proximity.Proofs.Layout.Known

/-! What the layouts of the well-known beacon types make of an advertisement with one of them,
behind flags or none and before any other data. The place of the type is looked for, so that it is
found too early where it is in the code of the company, and that of another type is found where it
is in the first identifier. -/

namespace Proximity

/-- The AD structure of the flags, if there are any. -/
def flagsBytes : Option UInt8 → Bytes
  | none => []
  | some flags => [0x02, 0x01, flags]

/-- A structure with the code of a company, a type and values, behind flags or none and before other
data. -/
def framed (flags : Option UInt8) (length : UInt8) (company type : UInt8 × UInt8)
    (values tail : Bytes) : Bytes :=
  flagsBytes flags ++ length :: 0xff :: company.1 :: company.2 :: type.1 :: type.2 ::
    (values ++ tail)

namespace Layout

section Framed

variable {source : String} {type : UInt8 × UInt8} {reserved : Bool} {sent : Beacon}
  (flags : Option UInt8) (length : UInt8) (company : UInt8 × UInt8) (tail : Bytes)

end Framed

end Layout

end Proximity
