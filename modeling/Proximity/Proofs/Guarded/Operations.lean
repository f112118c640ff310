import Proximity.Bytes
import Proximity.Identifier

/-! Operations that fault where a machine would stop or lose a part of its result: beyond the end of
a row, below zero, beyond the offsets that the machine can count or beyond a type. A machine counts
`size` offsets. -/

namespace Proximity

/-- Why an operation has no result. -/
inductive Fault
  | index (k length : Nat)
  | slice (start stop length : Nat)
  | replacement (start stop length : Nat)
  | overflow (a b : Nat)
  | underflow (a b : Nat)
  | narrowing (n : Nat)
  | emptyIdentifier
deriving DecidableEq

abbrev Guarded := Except Fault

namespace Guarded

def add (size a b : Nat) : Guarded Nat :=
  if a + b < size then .ok (a + b) else .error (.overflow a b)

def sub (a b : Nat) : Guarded Nat := if b ≤ a then .ok (a - b) else .error (.underflow a b)

/-- The number as a single byte. -/
def byte (n : Nat) : Guarded UInt8 :=
  if n < UInt8.size then .ok (UInt8.ofNat n) else .error (.narrowing n)

/-- The number as the value of a service UUID. -/
def uuid (n : UInt64) : Guarded UInt32 :=
  if n.toNat < UInt32.size then .ok n.toUInt32 else .error (.narrowing n.toNat)

/-- The byte at an index. -/
def get (bytes : Bytes) (k : Nat) : Guarded UInt8 :=
  match bytes[k]? with
  | some b => .ok b
  | none => .error (.index k bytes.length)

/-- The bytes from `start` up to `stop`. -/
def slice (bytes : Bytes) (start stop : Nat) : Guarded Bytes :=
  if start ≤ stop ∧ stop ≤ bytes.length then .ok (bytes.extract start stop)
  else .error (.slice start stop bytes.length)

/-- The bytes with those from `start` up to `stop` replaced by as many others. -/
def replace (bytes : Bytes) (start stop : Nat) (others : Bytes) : Guarded Bytes :=
  if start ≤ stop ∧ stop ≤ bytes.length ∧ others.length = stop - start then
    .ok (Bytes.overwrite bytes start others)
  else .error (.replacement start stop bytes.length)

def identifier (bytes : Bytes) : Guarded Identifier :=
  if h : bytes ≠ [] then .ok ⟨bytes, h⟩ else .error .emptyIdentifier

section

variable {α β : Type} {size a b k start stop n : Nat} {bytes others : Bytes} {word : UInt64}

@[simp] theorem ok_bind (a : α) (f : α → Guarded β) : (Except.ok a >>= f) = f a := rfl

@[simp] theorem pure_eq_ok (a : α) : (pure a : Guarded α) = .ok a := rfl

theorem add_eq_ok (countable : a + b < size) : add size a b = .ok (a + b) := if_pos countable

theorem eq_of_add_eq_ok {c : Nat} (h : add size a b = .ok c) : c = a + b := by
  unfold add at h
  split at h <;> cases h
  rfl

theorem sub_eq_ok (le : b ≤ a) : sub a b = .ok (a - b) := if_pos le

theorem byte_eq_ok (small : n < UInt8.size) : byte n = .ok (UInt8.ofNat n) := if_pos small

theorem uuid_eq_ok (small : word.toNat < UInt32.size) : uuid word = .ok word.toUInt32 :=
  if_pos small

theorem get_eq_ok {b : UInt8} (holds : bytes[k]? = some b) : get bytes k = .ok b := by
  rw [get, holds]

theorem slice_eq_ok (ordered : start ≤ stop) (inside : stop ≤ bytes.length) :
    slice bytes start stop = .ok (bytes.extract start stop) := if_pos ⟨ordered, inside⟩

theorem replace_eq_ok (ordered : start ≤ stop) (inside : stop ≤ bytes.length)
    (length : others.length = stop - start) :
    replace bytes start stop others = .ok (Bytes.overwrite bytes start others) :=
  if_pos ⟨ordered, inside, length⟩

theorem identifier_eq_ok (nonempty : bytes ≠ []) : identifier bytes = .ok ⟨bytes, nonempty⟩ :=
  dif_pos nonempty

end

end Guarded

end Proximity
