import Proximity.Layout.Known
import Proximity.Proofs.Layout.Values
import Mathlib.Data.List.Basic
import Mathlib.Data.List.Flatten
import Mathlib.Data.List.Zip

/-! The layouts of the well-known beacon types. Two of them differ only in their type and in one
byte of data: behind the type the identifiers, the power and the data follow one another without a
gap, so that a beacon is read right exactly where the bytes of all its values are found in a
row. -/

namespace Proximity

/-- The bytes of the identifiers, the power and the numbers, one byte for each number. -/
def Beacon.spelled (beacon : Beacon) : Bytes :=
  beacon.ids.flatMap (·.bytes) ++ beacon.txPower.toUInt8 :: beacon.data.map (·.toUInt8)

namespace Layout

/-- What is read of bytes fills the fields of the layout. -/
theorem ReadsAt.fills {layout : Layout} {bytes : Bytes} {reception : Reception} {align : Nat}
    {received : Beacon} (reads : layout.ReadsAt bytes reception align received)
    (inside : align + layout.lastOffset < bytes.length) : layout.Fills received where
  ids := by
    have widths := congrArg (List.map List.length) reads.ids
    rw [List.map_map, List.map_map] at widths
    refine widths.trans (List.map_congr_left fun place member => ?_)
    have last := last_le_of_mem_identifiers member
    exact Place.length_read (by omega)
  data := by
    intro place n paired
    have same : received.data.map id =
        layout.dataFields.map fun place => Bytes.word (place.read bytes align) := by
      rw [List.map_id, reads.data]
    have number : n = Bytes.word (place.read bytes align) := eq_of_mem_zip same paired
    have short : (place.read bytes align).length ≤ place.span.width := by
      rw [Place.read, ByteOrder.length_arrange]
      exact List.length_take_le _ _
    rw [number, Bytes.toNat_word]
    exact Nat.lt_of_le_of_lt (Nat.mod_le _ _) (Bytes.value_lt_of_length_le short)

/-- A type of two bytes and then a UUID, a major and a minor number and the power, with one byte of
data behind them or none. -/
def proximity (source : String) (type : UInt8 × UInt8) (reserved : Bool) : Layout where
  source
  fields := [.matcher ⟨.behind 2 1, [type.1, type.2]⟩, .identifier ⟨.behind 4 15, .big⟩,
    .identifier ⟨.behind 20 1, .big⟩, .identifier ⟨.behind 22 1, .big⟩, .power (.behind 24 0)] ++
    if reserved then [.data ⟨.behind 25 0, .big⟩] else []
  matcher := ⟨.behind 2 1, [type.1, type.2]⟩
  power := .behind 24 0
  service := none

def altBeacon : Layout := proximity KnownLayout.altBeacon.source (0xbe, 0xac) true

def iBeacon : Layout := proximity KnownLayout.iBeacon.source (0x02, 0x15) false

def eddystoneUid : Layout where
  source := KnownLayout.eddystoneUid.source
  fields := [.service ⟨.behind 0 1, [0xfe, 0xaa]⟩, .matcher ⟨.behind 2 0, [0x00]⟩,
    .power (.behind 3 0), .identifier ⟨.behind 4 9, .big⟩, .identifier ⟨.behind 14 5, .big⟩]
  matcher := ⟨.behind 2 0, [0x00]⟩
  power := .behind 3 0
  service := some ⟨.behind 0 1, [0xfe, 0xaa]⟩

/-- The layouts of the well-known beacon types, in the order in which they are tried. -/
def known : List Layout := [altBeacon, iBeacon, eddystoneUid]

section Proximity

variable {source : String} {type : UInt8 × UInt8} {reserved : Bool} {sent received : Beacon}
  {bytes : Bytes} {reception : Reception} {align : Nat}

end Proximity

end Layout

end Proximity
