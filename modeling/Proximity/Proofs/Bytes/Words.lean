import Proximity.Proofs.Bytes
import Mathlib.Data.Nat.Digits.Defs

/-! Words in places of any width. A word is written in eight bytes. A narrower place has no room for
the first of them and a wider one has zeros in front of them, so that reading the place gives what
it has room for; and what a place of up to eight bytes holds is a word that fills it again. -/

namespace Proximity.Bytes

/-- The bytes are the digits of their number to the base 256, the last one being the lowest. -/
theorem value_eq_ofDigits (bytes : Bytes) :
    value bytes = Nat.ofDigits 256 (bytes.reverse.map UInt8.toNat) := by
  induction bytes using List.reverseRecOn with
  | nil => rfl
  | append_singleton bytes b ih =>
    rw [value_concat, ih, List.reverse_append, List.reverse_singleton, List.singleton_append,
      List.map_cons, Nat.ofDigits_cons, Nat.add_comm]

/-- No width has room for more of a word than eight bytes. -/
theorem toNat_mod_pow_min (n : UInt64) (width : Nat) :
    n.toNat % 256 ^ min width 8 = n.toNat % 256 ^ width := by
  rcases Nat.le_total width 8 with narrow | wide
  · rw [Nat.min_eq_left narrow]
  · have bound : n.toNat < 256 ^ 8 := n.toNat_lt
    have room : n.toNat < 256 ^ width :=
      Nat.lt_of_lt_of_le bound (Nat.pow_le_pow_right (by decide) wide)
    rw [Nat.min_eq_right wide, Nat.mod_eq_of_lt bound, Nat.mod_eq_of_lt room]

/-- The bytes that a place has over are zeros in front. -/
theorem take_fit (width : Nat) (bytes : Bytes) :
    (fit width bytes).take (width - bytes.length) =
      List.replicate (width - bytes.length) 0 := by
  rw [fit, List.take_left' List.length_replicate]

/-- A word holds the number that its bytes spell modulo `2 ^ 64`. A word in a place of any width is
read back but for what the place has no room for, which is nothing from eight bytes on, where only
zeros are added in front. Up to eight bytes that are read as a word are written again as they
were. -/
theorem word_fit_inverse :
    (∀ bytes : Bytes,
      (word bytes).toNat = Nat.ofDigits 256 (bytes.reverse.map UInt8.toNat) % 2 ^ 64) ∧
    (∀ (n : UInt64) (width : Nat),
      let place := fit width (ofNat 8 n.toNat)
      (word place).toNat = n.toNat % 256 ^ min width 8 ∧
        place.take (width - 8) = List.replicate (width - 8) 0) ∧
    ∀ bytes : Bytes, bytes.length ≤ 8 →
      fit bytes.length (ofNat 8 (word bytes).toNat) = bytes := by
  refine ⟨fun bytes => ?reads, fun n width => ⟨?keeps, ?pads⟩, fun bytes => fit_ofNat_word⟩
  case reads => rw [toNat_word, value_eq_ofDigits]
  case keeps => rw [toNat_word_fit_ofNat, toNat_mod_pow_min]
  case pads => simpa using take_fit width (ofNat 8 n.toNat)

/-- Eight bytes, the first of which is zero. -/
theorem word_fit_inverse_eight :
    let bytes : Bytes := [0, 0xff, 1, 2, 3, 4, 5, 6]
    bytes.length ≤ 8 ∧ fit bytes.length (ofNat 8 (word bytes).toNat) = bytes :=
  ⟨by decide, word_fit_inverse.2.2 _ (by decide)⟩

/-- Of nine bytes the first one is lost. -/
example : word [0xff, 1, 2, 3, 4, 5, 6, 7, 8] = 0x0102030405060708 := by decide +kernel

end Proximity.Bytes
