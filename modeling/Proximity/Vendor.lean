/-! The companies that company codes stand for. -/

namespace Proximity.Vendor

/-- Codes that are common among beacons, with the names of the companies. -/
def known : List (UInt16 × String) :=
  [(0x004C, "Apple"), (0x00E0, "Google"), (0x0059, "Nordic Semiconductor"),
    (0x0118, "Radius Networks"), (0x015D, "Estimote"), (0x0499, "Ruuvi Innovations")]

/-- The name of the company with a given code. -/
def name? (code : UInt16) : Option String := known.lookup code

end Proximity.Vendor
