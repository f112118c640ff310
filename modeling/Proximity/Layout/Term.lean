import Proximity.Bytes.Hex
import Proximity.Layout
import Proximity.Layout.Error
import Proximity.Text.Cut
import Proximity.Text.Decimal

/-! The terms of a layout's text. With S and E as offsets and H as hexadecimal digits, a field is
declared by one of `m:S-E=H`, `i:S-E`, `p:S-E`, `d:S-E` and `s:S-E=H`; an identifier or a data field
whose least significant byte comes first ends in `l`, and a data field may end in `b`. -/

namespace Proximity

/-- The greatest offset that a term may name. -/
def maxOffset : Nat := 255

/-- The most bytes that a service UUID takes, leading zeros apart. -/
def maxServiceUuidLength : Nat := 4

namespace Field

def readOffset (text : List Char) : Except TermFault Nat :=
  match Decimal.read? text with
  | none => .error .form
  | some n => if n ≤ maxOffset then .ok n else .error .offset

/-- Two offsets, set apart by a dash. -/
def readSpan (text : List Char) : Except TermFault Span := do
  let some (before, after) := Cut.atFirst? '-' text | .error .form
  let first ← readOffset before
  let last ← readOffset after
  if h : first ≤ last then return ⟨first, last, h⟩ else .error (.order first last)

/-- Expected bytes for a field of `width` bytes, behind as many zeros as fill the field. At most
`most` bytes may follow the leading zeros. -/
def readExpected (width most : Nat) (digits : List Char) : Except TermFault Bytes := do
  let some bytes := Hex.read? digits | .error .hex
  let significant := bytes.dropWhile (· == 0)
  if significant.length ≤ most then return Bytes.fit width significant else .error .width

/-- A span and the bytes expected there, set apart by an equals sign. -/
def readPattern (most : Nat → Nat) (text : List Char) : Except TermFault Pattern := do
  let some (before, after) := Cut.atFirst? '=' text | .error .form
  let span ← readSpan before
  let expected ← readExpected span.width (most span.width) after
  return ⟨span, expected⟩

/-- The range of an identifier, and the byte order that the mark after it calls for. -/
def identifierOrder (text : List Char) : List Char × ByteOrder :=
  match Cut.beforeLast? 'l' text with
  | some range => (range, .little)
  | none => (text, .big)

/-- The range of a data field, and the byte order that the mark after it calls for. -/
def dataOrder (text : List Char) : List Char × ByteOrder :=
  match Cut.beforeLast? 'l' text with
  | some range => (range, .little)
  | none => ((Cut.beforeLast? 'b' text).getD text, .big)

/-- The field that a term declares. -/
def read : List Char → Except TermFault Field
  | 'm' :: ':' :: body => return .matcher (← readPattern id body)
  | 's' :: ':' :: body => return .service (← readPattern (min maxServiceUuidLength) body)
  | 'p' :: ':' :: body => return .power (← readSpan body)
  | 'i' :: ':' :: body =>
    let (range, order) := identifierOrder body
    return .identifier ⟨← readSpan range, order⟩
  | 'd' :: ':' :: body =>
    let (range, order) := dataOrder body
    return .data ⟨← readSpan range, order⟩
  | _ => .error .form

end Field

end Proximity
