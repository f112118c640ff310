/-! Byte strings, and the unsigned integers that they spell with the most significant byte first. -/

namespace Proximity

abbrev Bytes := List UInt8

namespace Bytes

/-- The number that a byte string spells, most significant byte first. -/
def value (bytes : Bytes) : Nat := bytes.foldl (fun total b => 256 * total + b.toNat) 0

/-- The 64-bit word that a byte string spells: of more than eight bytes the last eight count. -/
def word (bytes : Bytes) : UInt64 := bytes.foldl (fun total b => total <<< 8 ||| b.toUInt64) 0

/-- The last `width` base-256 digits of `n`, most significant first. -/
def ofNat : (width n : Nat) → Bytes
  | 0, _ => []
  | width + 1, n => ofNat width (n / 256) ++ [UInt8.ofNat n]

/-- Exactly `width` bytes: the last ones of `bytes`, after as many zeros as are missing. -/
def fit (width : Nat) (bytes : Bytes) : Bytes :=
  List.replicate (width - bytes.length) 0 ++ bytes.drop (bytes.length - width)

/-- The `length` bytes from offset `start` on, if there are that many. -/
def slice? (bytes : Bytes) (start length : Nat) : Option Bytes :=
  if start + length ≤ bytes.length then some ((bytes.drop start).take length) else none

/-- `bytes` with those from offset `start` on replaced by `patch`. -/
def overwrite (bytes : Bytes) (start : Nat) (patch : Bytes) : Bytes :=
  bytes.take start ++ patch ++ bytes.drop (start + patch.length)

@[simp] theorem length_ofNat (width n : Nat) : (ofNat width n).length = width := by
  induction width generalizing n with
  | zero => rfl
  | succ width ih => simp [ofNat, ih]

@[simp] theorem length_fit (width : Nat) (bytes : Bytes) : (fit width bytes).length = width := by
  simp only [fit, List.length_append, List.length_replicate, List.length_drop]
  omega

theorem fit_length (bytes : Bytes) : fit bytes.length bytes = bytes := by simp [fit]

theorem length_overwrite {bytes patch : Bytes} {start : Nat}
    (h : start + patch.length ≤ bytes.length) :
    (overwrite bytes start patch).length = bytes.length := by
  simp only [overwrite, List.length_append, List.length_take, List.length_drop]
  omega

end Bytes

/-- The order in which the bytes of an integer are transmitted. -/
inductive ByteOrder
  | big
  | little
deriving DecidableEq, Repr

/-- Takes bytes from transmission order to most significant first, and back. -/
def ByteOrder.arrange : ByteOrder → Bytes → Bytes
  | .big, bytes => bytes
  | .little, bytes => bytes.reverse

@[simp] theorem ByteOrder.length_arrange (order : ByteOrder) (bytes : Bytes) :
    (order.arrange bytes).length = bytes.length := by
  cases order <;> simp [arrange]

@[simp] theorem ByteOrder.arrange_arrange (order : ByteOrder) (bytes : Bytes) :
    order.arrange (order.arrange bytes) = bytes := by
  cases order <;> simp [arrange]

end Proximity
