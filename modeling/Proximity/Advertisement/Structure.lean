import Proximity.Layout.Encode

/-! AD structures, the parts of an advertisement: a length byte, a type byte and a body. The length
byte counts the type and the body. -/

namespace Proximity

/-- An AD structure. -/
structure AdStructure where
  kind : UInt8
  body : Bytes
  body_length_le : body.length ≤ maxBodyLength
deriving DecidableEq

namespace AdStructure

def ofBody (kind : UInt8) (body : Bytes) : Except EncodeError AdStructure :=
  if h : body.length ≤ maxBodyLength then .ok ⟨kind, body, h⟩ else .error (.bodyTooLong body.length)

def toBytes (s : AdStructure) : Bytes := UInt8.ofNat (s.body.length + 1) :: s.kind :: s.body

/-- The structure at the start of `data`, and the data behind it. There is none where the length is
zero or greater than what is left. -/
def take? : (data : Bytes) → Option (AdStructure × Bytes)
  | length :: kind :: data =>
    if h : 0 < length.toNat ∧ length.toNat - 1 ≤ data.length then
      let body := data.take (length.toNat - 1)
      have body_length_le : body.length ≤ maxBodyLength := by
        have := length.toNat_lt
        simp only [body, maxBodyLength, List.length_take]
        omega
      some (⟨kind, body, body_length_le⟩, data.drop (length.toNat - 1))
    else none
  | _ => none

theorem length_of_take? {data rest : Bytes} {s : AdStructure} (h : take? data = some (s, rest)) :
    rest.length < data.length := by
  unfold take? at h
  split at h
  · split at h
    · simp only [Option.some.injEq, Prod.mk.injEq] at h
      rw [← h.2, List.length_drop, List.length_cons, List.length_cons]
      omega
    · exact absurd h (by simp)
  · exact absurd h (by simp)

/-- The structures that `data` starts with, and the data behind the last. -/
def split (data : Bytes) : List AdStructure × Bytes :=
  match h : take? data with
  | none => ([], data)
  | some (s, rest) =>
    have := length_of_take? h
    let (later, rest) := split rest
    (s :: later, rest)
termination_by data.length

/-! The types of AD structures. -/

def flagsKind : UInt8 := 0x01

def someUuids16Kind : UInt8 := 0x02

def allUuids16Kind : UInt8 := 0x03

def allUuids32Kind : UInt8 := 0x05

def shortNameKind : UInt8 := 0x08

def fullNameKind : UInt8 := 0x09

def serviceData16Kind : UInt8 := 0x16

def serviceData32Kind : UInt8 := 0x20

def manufacturerKind : UInt8 := 0xFF

end AdStructure

end Proximity
