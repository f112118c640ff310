import Proximity.Bytes

/-! Byte strings as hexadecimal digits. -/

namespace Proximity.Hex

/-- The value of a hexadecimal digit of either case. -/
def digitValue? (c : Char) : Option UInt8 :=
  if '0' ≤ c ∧ c ≤ '9' then some (UInt8.ofNat (c.toNat - 48))
  else if 'a' ≤ c ∧ c ≤ 'f' then some (UInt8.ofNat (c.toNat - 87))
  else if 'A' ≤ c ∧ c ≤ 'F' then some (UInt8.ofNat (c.toNat - 55))
  else none

def isDigit (c : Char) : Bool := (digitValue? c).isSome

/-- The bytes that an even number of digits spell. -/
def readPairs? : List Char → Option Bytes
  | [] => some []
  | [_] => none
  | high :: low :: rest => do
    let h ← digitValue? high
    let l ← digitValue? low
    let bytes ← readPairs? rest
    return (16 * h + l) :: bytes

/-- The bytes that one or more digits spell, an odd number of digits read behind a zero. -/
def read? (digits : List Char) : Option Bytes :=
  if digits.isEmpty then none
  else if digits.length % 2 = 1 then readPairs? ('0' :: digits)
  else readPairs? digits

/-- The two lower-case digits of a byte. -/
def digits (b : UInt8) : List Char := [Nat.digitChar (b.toNat / 16), Nat.digitChar (b.toNat % 16)]

/-- Two lower-case digits for each byte. -/
def write (bytes : Bytes) : List Char := bytes.flatMap digits

/-- The two upper-case digits of a byte. -/
def upperDigits (b : UInt8) : List Char := (digits b).map Char.toUpper

theorem length_write (bytes : Bytes) : (write bytes).length = 2 * bytes.length := by
  induction bytes with
  | nil => rfl
  | cons b bytes ih =>
    simp only [write, List.flatMap_cons, List.length_append, List.length_cons] at ih ⊢
    simp only [digits, List.length_cons, List.length_nil, ih]
    omega

end Proximity.Hex
