import Proximity.Text.Decimal

/-! Decimal digits as numbers. -/

namespace Proximity.Decimal

/-- One or more digits spell the number. -/
def Numeral (digits : List Char) (n : Nat) : Prop :=
  (digits ≠ [] ∧ ∀ c ∈ digits, c.isDigit) ∧ Nat.ofDigitChars 10 digits 0 = n

theorem read?_eq_some_iff {digits : List Char} {n : Nat} :
    read? digits = some n ↔ Numeral digits n := by
  rw [read?, Numeral, ← List.all_eq_true, Option.ite_none_right_eq_some, Option.some_inj]

/-- Zeros in front change no number. -/
theorem Numeral.zeros {digits : List Char} {n : Nat} (numeral : Numeral digits n) (k : Nat) :
    Numeral (List.replicate k '0' ++ digits) n := by
  induction k with
  | zero => exact numeral
  | succ k ih =>
    obtain ⟨⟨-, all⟩, number⟩ := ih
    exact ⟨⟨List.cons_ne_nil _ _, List.forall_mem_cons.mpr ⟨rfl, all⟩⟩, number⟩

/-- No zero stands in front of the digits of a number other than zero. -/
theorem head?_write_ne_zero {n : Nat} (positive : 0 < n) : (write n).head? ≠ some '0' := by
  induction n using Nat.strongRecOn with
  | ind n ih =>
    by_cases small : n < 10
    · have table : ∀ n < 10, 0 < n → Nat.digitChar n ≠ '0' := by decide
      rw [write, Nat.toDigits_of_lt_base small]
      exact fun same => table n small positive (Option.some.inj same)
    · have less : n / 10 < n := by omega
      obtain ⟨c, digits, written, -⟩ := exists_write_eq_cons (n / 10)
      have first := ih (n / 10) less (by omega)
      rw [written] at first
      rw [write, Nat.toDigits_of_base_le (by decide) (by omega), ← write, written]
      exact first

end Proximity.Decimal
