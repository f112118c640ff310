import Proximity.Text.Utf8
import Mathlib.Tactic.SplitIfs

/-! What the bytes of a text say of its characters. -/

namespace Proximity.Utf8

/-- Different texts have different bytes. -/
theorem write_injective {a b : List Char} (same : write a = write b) : a = b := by
  have bytes : (String.ofList a).toByteArray = (String.ofList b).toByteArray := by
    show a.utf8Encode = b.utf8Encode
    rw [List.utf8Encode, List.utf8Encode, ← write, ← write, same]
  exact String.ofList_inj.mp (String.toByteArray_inj.mp bytes)

theorem write_append (front back : List Char) : write (front ++ back) = write front ++ write back :=
  List.flatMap_append

/-- The one byte of an ASCII character is its code. -/
theorem write_ascii {c : Char} (ascii : c.toNat < 128) : write [c] = [UInt8.ofNat c.toNat] := by
  have small : c.utf8Size = 1 := by
    rw [Char.utf8Size_eq_one_iff, UInt32.le_iff_toNat_le]
    exact Nat.le_of_lt_succ ascii
  rw [write, List.flatMap_singleton, String.utf8EncodeChar_eq_singleton small]
  rfl

@[simp] theorem size_nil : size [] = 0 := rfl

@[simp] theorem size_append (front back : List Char) :
    size (front ++ back) = size front + size back := by
  rw [size, write_append, List.length_append, size, size]

theorem size_cons (c : Char) (text : List Char) : size (c :: text) = size [c] + size text :=
  size_append [c] text

/-- ASCII text takes as many bytes as it has characters. -/
theorem size_of_ascii {text : List Char} (ascii : ∀ c ∈ text, c.toNat < 128) :
    size text = text.length := by
  induction text with
  | nil => rfl
  | cons c text ih =>
    have first : size [c] = 1 := by rw [size, write_ascii (ascii c List.mem_cons_self)]; rfl
    rw [size_cons, first, ih fun d member => ascii d (List.mem_cons_of_mem _ member),
      List.length_cons, Nat.add_comm]

/-- The one byte of an ASCII character is its code, and the bytes of other characters are above the
ASCII range. -/
theorem le_of_mem_encode {c : Char} {b : UInt8} (member : b ∈ String.utf8EncodeChar c) :
    min c.toNat 128 ≤ b.toNat := by
  have code : c.val.toNat = c.toNat := rfl
  simp only [String.utf8EncodeChar] at member
  split_ifs at member <;>
    simp only [List.mem_cons, List.not_mem_nil, or_false] at member
  · rw [member, UInt8.toNat_ofNat']
    omega
  · rcases member with rfl | rfl <;> rw [UInt8.toNat_ofNat'] <;> omega
  · rcases member with rfl | rfl | rfl <;> rw [UInt8.toNat_ofNat'] <;> omega
  · rcases member with rfl | rfl | rfl | rfl <;> rw [UInt8.toNat_ofNat'] <;> omega

/-- Text without control characters has no bytes that are control characters. -/
theorem le_of_mem_write {text : List Char} (printable : ∀ c ∈ text, 0x20 ≤ c.toNat) {b : UInt8}
    (member : b ∈ write text) : 0x20 ≤ b.toNat := by
  obtain ⟨c, inText, inside⟩ := List.mem_flatMap.mp member
  have := le_of_mem_encode inside
  have := printable c inText
  omega

end Proximity.Utf8
