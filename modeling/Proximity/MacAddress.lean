import Proximity.Bytes.Hex

/-! Device addresses. -/

namespace Proximity

/-- The address of a device, as transmitted. -/
structure MacAddress where
  bytes : Vector UInt8 6
deriving DecidableEq

/-- Upper-case digits with a colon between the bytes. -/
def MacAddress.text (mac : MacAddress) : String :=
  String.ofList ([':'].intercalate (mac.bytes.toList.map Hex.upperDigits))

end Proximity
