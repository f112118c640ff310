import Proximity.Bytes.Hex
import Proximity.Text.Decimal

/-! Objects as compact JSON text. -/

namespace Proximity.Json

/-- The values that the members of an object can have. -/
inductive Value
  | flag (b : Bool)
  | integer (n : Int)
  | text (s : String)
  | texts (l : List String)
deriving DecidableEq

/-- A character inside a string. Other control characters than those with a letter of their own are
written by their code in upper-case digits. -/
def escape (c : Char) : List Char :=
  if c = '"' then ['\\', '"']
  else if c = '\\' then ['\\', '\\']
  else if c = '\x08' then ['\\', 'b']
  else if c = '\t' then ['\\', 't']
  else if c = '\n' then ['\\', 'n']
  else if c = '\x0c' then ['\\', 'f']
  else if c = '\r' then ['\\', 'r']
  else if c.toNat < 0x20 then ['\\', 'u', '0', '0'] ++ Hex.upperDigits (UInt8.ofNat c.toNat)
  else [c]

def quote (s : String) : List Char := '"' :: s.toList.flatMap escape ++ ['"']

/-- Items between two brackets, set apart by commas. -/
def bracket (left right : Char) (items : List (List Char)) : List Char :=
  left :: [','].intercalate items ++ [right]

def Value.write : Value → List Char
  | .flag true => "true".toList
  | .flag false => "false".toList
  | .integer n => Decimal.writeInt n
  | .text s => quote s
  | .texts l => bracket '[' ']' (l.map quote)

def writeMember (name : String) (value : Value) : List Char := quote name ++ ':' :: value.write

/-- An object with the members in the given order. -/
def write (members : List (String × Value)) : List Char :=
  bracket '\x7b' '\x7d' (members.map fun (name, value) => writeMember name value)

end Proximity.Json
