import Proximity.Bytes

/-! Layouts: where each field of a beacon advertisement lies. Offsets count from the company code or
service UUID, which takes bytes 0 and 1 of the advertised data. -/

namespace Proximity

/-- The bytes from offset `first` to offset `last`, both included. -/
structure Span where
  first : Nat
  last : Nat
  first_le_last : first ≤ last
deriving DecidableEq

/-- The number of bytes, at least one. -/
def Span.width (span : Span) : Nat := span.last - span.first + 1

/-- Bytes that are expected at a fixed place. -/
structure Pattern where
  span : Span
  expected : Bytes
deriving DecidableEq

/-- Where a value is transmitted, and in which byte order. -/
structure Place where
  span : Span
  order : ByteOrder
deriving DecidableEq

inductive Field
  /-- The bytes by which a beacon type is recognised. -/
  | matcher (pattern : Pattern)
  /-- A part of the beacon's identity. -/
  | identifier (place : Place)
  /-- The signal strength that the beacon has at one metre. -/
  | power (span : Span)
  /-- A number that is no part of the beacon's identity. -/
  | data (place : Place)
  /-- The service UUID under which the beacon advertises, most significant byte first. -/
  | service (pattern : Pattern)
deriving DecidableEq

namespace Field

/-- Where the value of the field lies in a layout. -/
def place : Field → Place
  | .matcher pattern | .service pattern => ⟨pattern.span, .big⟩
  | .power span => ⟨span, .big⟩
  | .identifier place | .data place => place

/-- The bytes that the field must hold, if it is a fixed one. -/
def expected? : Field → Option Bytes
  | .matcher pattern | .service pattern => some pattern.expected
  | .identifier _ | .power _ | .data _ => none

def identifier? : Field → Option Place
  | .identifier place => some place
  | _ => none

def data? : Field → Option Place
  | .data place => some place
  | _ => none

def letter : Field → Char
  | .matcher _ => 'm'
  | .identifier _ => 'i'
  | .power _ => 'p'
  | .data _ => 'd'
  | .service _ => 's'

end Field

/-- The fields of a beacon type, with those of which there is one at most set apart. -/
structure Layout where
  source : String
  fields : List Field
  matcher : Pattern
  power : Span
  service : Option Pattern
deriving DecidableEq

namespace Layout

/-- The places of the identifiers, most significant first. -/
def identifiers (layout : Layout) : List Place := layout.fields.filterMap Field.identifier?

/-- The places of the data fields, as declared. -/
def dataFields (layout : Layout) : List Place := layout.fields.filterMap Field.data?

/-- The number by which the beacon type is known. -/
def typeCode (layout : Layout) : UInt64 := Bytes.word layout.matcher.expected

/-- The service UUID under which the beacon advertises. -/
def serviceUuid (layout : Layout) : Option UInt32 :=
  layout.service.map fun pattern => (Bytes.word pattern.expected).toUInt32

/-- The offset of the last byte that a field takes. -/
def lastOffset (layout : Layout) : Nat := (layout.fields.map (·.place.span.last)).foldr max 0

end Layout

end Proximity
