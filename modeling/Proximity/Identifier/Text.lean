import Proximity.Identifier
import Proximity.Identifier.Uuid
import Proximity.Text.Decimal

/-! Identifiers as text. Two bytes are written as a decimal number, sixteen as a UUID and any other
number of bytes in hexadecimal; all three forms are read. -/

namespace Proximity

/-- A text in none of the three forms. -/
structure IdentifierSyntaxError where
  text : String
deriving DecidableEq

def IdentifierSyntaxError.message (e : IdentifierSyntaxError) : String :=
  s!"unable to parse identifier '{e.text}'"

/-- A form of text that the size of an identifier rules out. -/
inductive FormError
  | notUuid (size : Nat)
  | notInteger (size : Nat)
deriving DecidableEq

def FormError.message : FormError → String
  | .notUuid size => s!"identifier is {size} bytes, a UUID needs 16"
  | .notInteger size => s!"identifier is {size} bytes, an integer needs 2"

namespace Identifier

/-- The bytes of an identifier's text. A text that starts with `0x` is hexadecimal or nothing, and
one with the digits of a UUID is a UUID even if all of them are decimal. -/
def readBytes? : List Char → Option Bytes
  | '0' :: 'x' :: digits => Hex.read? digits
  | text =>
    match Uuid.read? text with
    | some bytes => some bytes
    | none => do
      let n ← Decimal.read? text
      if n < UInt16.size then some (Bytes.ofNat 2 n) else none

def parse (text : String) : Except IdentifierSyntaxError Identifier :=
  match readBytes? text.toList with
  | none => .error ⟨text⟩
  | some bytes => if h : bytes ≠ [] then .ok ⟨bytes, h⟩ else .error ⟨text⟩

/-- The hexadecimal form, open to every identifier. -/
def hexChars (id : Identifier) : List Char := '0' :: 'x' :: Hex.write id.bytes

/-- The form that the size of the identifier calls for. -/
def chars (id : Identifier) : List Char :=
  if id.size = 2 then Decimal.write (Bytes.value id.bytes)
  else if id.size = 16 then Uuid.write id.bytes
  else id.hexChars

def hexText (id : Identifier) : String := String.ofList id.hexChars

/-- The form that the size of the identifier calls for, as a string. -/
def text (id : Identifier) : String := String.ofList id.chars

/-- The form of sixteen bytes. -/
def uuidText (id : Identifier) : Except FormError String :=
  if id.size = 16 then .ok (String.ofList (Uuid.write id.bytes)) else .error (.notUuid id.size)

/-- The number that two bytes spell. -/
def toUInt16 (id : Identifier) : Except FormError UInt16 :=
  if id.size = 2 then .ok (UInt16.ofNat (Bytes.value id.bytes)) else .error (.notInteger id.size)

end Identifier

end Proximity
