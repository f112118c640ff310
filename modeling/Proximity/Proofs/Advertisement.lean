import Proximity.Advertisement.Summary
import Proximity.Proofs.Layout.RoundTrip

/-! AD structures that are put one behind the other are found again. What was framed as an
advertisement says nothing but its code or UUID and the structure that holds its payload. -/

namespace Proximity

namespace AdStructure

theorem take?_toBytes_append (s : AdStructure) (rest : Bytes) :
    take? (s.toBytes ++ rest) = some (s, rest) := by
  obtain ⟨kind, body, short⟩ := s
  have length : (body.length + 1) % 256 = body.length + 1 := by
    unfold maxBodyLength at short
    omega
  simp [toBytes, take?, length]

theorem split_append (s : AdStructure) (rest : Bytes) :
    split (s.toBytes ++ rest) = (s :: (split rest).1, (split rest).2) := by
  rw [split]
  split
  · rename_i none
    rw [take?_toBytes_append] at none
    cases none
  · rename_i some
    rw [take?_toBytes_append] at some
    cases some
    rfl

/-- Structures in front of other data are found again, and the rest is walked on its own. -/
theorem split_flatMap_toBytes_append (structures : List AdStructure) (tail : Bytes) :
    split (structures.flatMap toBytes ++ tail) =
      (structures ++ (split tail).1, (split tail).2) := by
  induction structures with
  | nil => rfl
  | cons s structures ih =>
    rw [List.flatMap_cons, List.append_assoc, split_append, ih, List.cons_append]

/-- The structures that data is made of are found again, and nothing is left. -/
theorem split_flatMap_toBytes (structures : List AdStructure) :
    split (structures.flatMap toBytes) = (structures, []) := by
  have nothing : split [] = ([], []) := by
    rw [split]
    rfl
  have found := split_flatMap_toBytes_append structures []
  rwa [nothing, List.append_nil, List.append_nil] at found

end AdStructure

namespace Summary

theorem ofBytes_flatMap_toBytes (structures : List AdStructure) :
    ofBytes (structures.flatMap AdStructure.toBytes) = structures.foldl add {} := by
  rw [ofBytes, AdStructure.split_flatMap_toBytes]

variable (summary : Summary) {s : AdStructure}

/-- A list of UUIDs tells of no name and no payload. -/
theorem exists_add_uuids
    (kind : s.kind = AdStructure.allUuids16Kind ∨ s.kind = AdStructure.allUuids32Kind) :
    ∃ serviceUuids, summary.add s = { summary with serviceUuids } := by
  rcases kind with kind | kind
  · refine ⟨(summary.serviceUuids ++ uuids16 s.body).take maxServiceUuids, ?_⟩
    simp only [add, kind]
    rfl
  · refine ⟨summary.serviceUuids, ?_⟩
    by_cases short : s.body.length < headerLength <;>
    · simp only [add, kind, short]
      rfl

theorem add_manufacturer (kind : s.kind = AdStructure.manufacturerKind)
    (long : headerLength ≤ s.body.length) :
    summary.add s = { summary with manufacturer := summary.manufacturer <|> some s } := by
  simp only [add, kind, Nat.not_lt.mpr long]
  rfl

theorem add_service
    (kind : s.kind = AdStructure.serviceData16Kind ∨ s.kind = AdStructure.serviceData32Kind)
    (long : headerLength ≤ s.body.length) :
    summary.add s = { summary with serviceData := summary.serviceData <|> some s } := by
  rcases kind with kind | kind <;>
  · simp only [add, kind, Nat.not_lt.mpr long]
    rfl

end Summary

namespace Advertisement

variable {structures : List AdStructure} {payload : Bytes}

theorem structures_manufacturer {company : UInt16}
    (h : (manufacturer company payload).structures = .ok structures) :
    ∃ s, structures = [s] ∧ s.kind = AdStructure.manufacturerKind ∧
      s.body = (manufacturer company payload).header ++ payload := by
  obtain ⟨s, holds, h⟩ := bind_eq_ok.mp h
  cases h
  exact ⟨s, rfl, ofBody_eq_ok holds⟩

theorem structures_service {uuid : UInt32}
    (h : (service uuid payload).structures = .ok structures) :
    ∃ listed s, structures = [listed, s] ∧
      listed.kind = (if uuid.toNat < UInt16.size then AdStructure.allUuids16Kind
        else AdStructure.allUuids32Kind) ∧
      listed.body = uuidBytes uuid ∧
      s.kind = (if uuid.toNat < UInt16.size then AdStructure.serviceData16Kind
        else AdStructure.serviceData32Kind) ∧
      s.body = uuidBytes uuid ++ payload := by
  obtain ⟨listed, lists, h⟩ := bind_eq_ok.mp h
  obtain ⟨s, holds, h⟩ := bind_eq_ok.mp h
  cases h
  obtain ⟨listKind, listBody⟩ := ofBody_eq_ok lists
  obtain ⟨kind, body⟩ := ofBody_eq_ok holds
  exact ⟨listed, s, rfl, listKind, listBody, kind, body⟩

theorem two_le_length_uuidBytes (uuid : UInt32) : headerLength ≤ (uuidBytes uuid).length := by
  rw [uuidBytes, ByteOrder.length_arrange, Bytes.length_ofNat]
  split <;> decide

/-- The structure that holds the payload is the only one of its kind, and no name is told. -/
theorem summary_structures {advertisement : Advertisement}
    (h : advertisement.structures = .ok structures) :
    ∃ last, structures.getLast? = some last ∧
      let summary := Summary.ofBytes (structures.flatMap AdStructure.toBytes)
      summary.name = none ∧ summary.manufacturer.toList ++ summary.serviceData.toList = [last] := by
  rw [Summary.ofBytes_flatMap_toBytes]
  cases advertisement with
  | manufacturer company payload =>
    obtain ⟨s, rfl, kind, body⟩ := structures_manufacturer h
    have long : headerLength ≤ s.body.length := by
      rw [body, List.length_append, header, ByteOrder.length_arrange, Bytes.length_ofNat]
      exact Nat.le_add_right _ _
    refine ⟨s, rfl, ?_⟩
    rw [List.foldl_cons, Summary.add_manufacturer {} kind long]
    exact ⟨rfl, rfl⟩
  | service uuid payload =>
    obtain ⟨listed, s, rfl, listKind, -, kind, body⟩ := structures_service h
    have long : headerLength ≤ s.body.length := by
      rw [body, List.length_append]
      exact Nat.le_trans (two_le_length_uuidBytes uuid) (Nat.le_add_right _ _)
    obtain ⟨serviceUuids, lists⟩ :=
      Summary.exists_add_uuids {} (listKind ▸ ite_eq_or_eq _ _ _)
    refine ⟨s, rfl, ?_⟩
    rw [List.foldl_cons, lists, List.foldl_cons,
      Summary.add_service _ (kind ▸ ite_eq_or_eq _ _ _) long]
    exact ⟨rfl, rfl⟩

end Advertisement

end Proximity
