/-! What can be wrong with the text of a layout. -/

namespace Proximity

/-- What is wrong with a single term. -/
inductive TermFault
  /-- The term declares no kind of field. -/
  | form
  /-- An offset is larger than any advertisement. -/
  | offset
  /-- The first offset is greater than the last. -/
  | order (first last : Nat)
  /-- The expected bytes are not hexadecimal digits. -/
  | hex
  /-- The expected bytes do not fit the field. -/
  | width
deriving DecidableEq

/-- Why a text declares no layout. -/
inductive LayoutError
  | term (text : String) (fault : TermFault)
  | matcherMissing
  | powerMissing
  | identifierMissing
  | matcherRepeated
  | powerRepeated
  | serviceRepeated
deriving DecidableEq

/-- The wording of a fault of the term `text`. -/
def TermFault.message (text : String) : TermFault → String
  | .form => s!"layout term '{text}' does not match any field pattern"
  | .offset => s!"layout term '{text}' has an offset out of range"
  | .order first last => s!"layout term '{text}' has start {first} after end {last}"
  | .hex => s!"layout term '{text}' has an invalid hex value"
  | .width => s!"layout term '{text}' has a value wider than its field"

def LayoutError.message : LayoutError → String
  | .term text fault => fault.message text
  | .matcherMissing => "layout has no matcher (m:) field"
  | .powerMissing => "layout has no power (p:) field"
  | .identifierMissing => "layout has no identifier (i:) field"
  | .matcherRepeated => "layout declares more than one matcher (m:) field"
  | .powerRepeated => "layout declares more than one power (p:) field"
  | .serviceRepeated => "layout declares more than one service UUID (s:) field"

end Proximity
