import Proximity.Bytes.Hex

/-! UUIDs as text: 32 hexadecimal digits in five groups, set apart by dashes. -/

namespace Proximity.Uuid

/-- The numbers of digits in the groups after the first. -/
def laterGroups : List Nat := [4, 4, 4, 12]

/-- The first `n` characters, if they are digits, and what follows them. -/
def group? (n : Nat) (text : List Char) : Option (List Char × List Char) :=
  if n ≤ text.length ∧ (text.take n).all Hex.isDigit then some (text.take n, text.drop n) else none

/-- The text behind one dash at its start, if there is one. -/
def skipDash : List Char → List Char
  | '-' :: rest => rest
  | text => text

/-- The digits of groups of the given lengths, each behind at most one dash. -/
def groups? : List Nat → List Char → Option (List Char)
  | [], text => if text.isEmpty then some [] else none
  | n :: lengths, text => do
    let (digits, rest) ← group? n (skipDash text)
    let later ← groups? lengths rest
    return digits ++ later

/-- The bytes of a UUID, each of its four dashes optional. -/
def read? (text : List Char) : Option Bytes := do
  let (digits, rest) ← group? 8 text
  let later ← groups? laterGroups rest
  Hex.read? (digits ++ later)

/-- Lower-case digits with a dash between the groups. -/
def write (bytes : Bytes) : List Char :=
  let digits := Hex.write bytes
  digits.take 8 ++ '-' :: (digits.drop 8).take 4 ++ '-' :: (digits.drop 12).take 4 ++
    '-' :: (digits.drop 16).take 4 ++ '-' :: digits.drop 20

end Proximity.Uuid
