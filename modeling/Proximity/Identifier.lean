import Proximity.Bytes

/-! Beacon identifiers: a proximity UUID, a major or minor number, a namespace or an instance. -/

namespace Proximity

/-- A beacon identifier is a byte string that is not empty. -/
structure Identifier where
  bytes : Bytes
  bytes_ne_nil : bytes ≠ []
deriving DecidableEq

/-- A byte range that is empty or leaves its buffer. -/
structure RangeError where
  start : Nat
  stop : Nat
  length : Nat
deriving DecidableEq

def RangeError.message (e : RangeError) : String :=
  s!"byte range {e.start}..{e.stop} is invalid for a buffer of {e.length} bytes"

namespace Identifier

/-- The identifier transmitted in bytes `start` to `stop - 1` of `buffer`. -/
def ofRange (buffer : Bytes) (start stop : Nat) (order : ByteOrder) :
    Except RangeError Identifier :=
  if h : start < stop ∧ stop ≤ buffer.length then
    .ok {
      bytes := order.arrange ((buffer.drop start).take (stop - start))
      bytes_ne_nil := by
        rw [← List.length_pos_iff, ByteOrder.length_arrange, List.length_take, List.length_drop]
        omega }
  else .error ⟨start, stop, buffer.length⟩

def ofBytes (bytes : Bytes) : Except RangeError Identifier := ofRange bytes 0 bytes.length .big

/-- The two-byte identifier of a major or minor number. -/
def ofUInt16 (n : UInt16) : Identifier where
  bytes := Bytes.ofNat 2 n.toNat
  bytes_ne_nil := by simp [← List.length_pos_iff]

def ofUuid (uuid : Vector UInt8 16) : Identifier where
  bytes := uuid.toList
  bytes_ne_nil := by simp

def size (id : Identifier) : Nat := id.bytes.length

/-- A shorter identifier comes first; of one length the first differing byte decides. -/
instance : Ord Identifier where
  compare x y := (compare x.size y.size).then (compare x.bytes y.bytes)

def sort (ids : List Identifier) : List Identifier :=
  ids.mergeSort fun x y => (compare x y).isLE

end Identifier

end Proximity
