/-! Integers as decimal digits. -/

namespace Proximity.Decimal

/-- The number that one or more ASCII digits spell, however many zeros lead. -/
def read? (digits : List Char) : Option Nat :=
  if digits ≠ [] ∧ digits.all Char.isDigit then some (Nat.ofDigitChars 10 digits 0) else none

/-- The digits of a number, without leading zeros. -/
def write (n : Nat) : List Char := Nat.toDigits 10 n

/-- The digits of an integer, behind a minus sign if it is negative. -/
def writeInt : Int → List Char
  | .ofNat n => write n
  | .negSucc n => '-' :: write (n + 1)

theorem isDigit_of_mem_write {n : Nat} {c : Char} (member : c ∈ write n) : c.isDigit :=
  Nat.isDigit_of_mem_toDigits (by decide) (by decide) member

theorem exists_write_eq_cons (n : Nat) : ∃ c digits, write n = c :: digits ∧ c.isDigit := by
  obtain ⟨c, digits, written⟩ := List.exists_cons_of_ne_nil (Nat.toDigits_ne_nil (b := 10) (n := n))
  have first : c ∈ write n := by
    rw [write, written]
    exact List.mem_cons_self
  exact ⟨c, digits, written, isDigit_of_mem_write first⟩

/-- A number is read back as it was written. -/
theorem read?_write (n : Nat) : read? (write n) = some n := by
  have digits : (write n).all Char.isDigit = true :=
    List.all_eq_true.mpr fun _ => isDigit_of_mem_write
  rw [read?, if_pos ⟨Nat.toDigits_ne_nil, digits⟩, write, Nat.ofDigitChars_ten_toDigits]

end Proximity.Decimal
