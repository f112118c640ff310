import Proximity.Proofs.Advertisement.Summary

/-! Framed advertisements in front of any other data. Their AD structures are the first that are
walked over, so that the code or UUID and the payload are told whatever follows. -/

namespace Proximity

namespace AdStructure

/-- The kinds and bodies that were framed are those of the structures. -/
theorem map_of_mapM_ofBody {parts : List (UInt8 × Bytes)} {structures : List AdStructure}
    (framed : parts.mapM (fun part => ofBody part.1 part.2) = .ok structures) :
    structures.map (fun s => (s.kind, s.body)) = parts := by
  induction parts generalizing structures with
  | nil =>
    cases framed
    rfl
  | cons part parts ih =>
    rw [List.mapM_cons] at framed
    obtain ⟨s, first, framed⟩ := bind_eq_ok.mp framed
    obtain ⟨later, rest, framed⟩ := bind_eq_ok.mp framed
    cases framed
    obtain ⟨kind, body⟩ := Advertisement.ofBody_eq_ok first
    rw [List.map_cons, ih rest, kind, body]

end AdStructure

namespace Summary

open AdStructure

theorem ofBytes_flatMap_toBytes_append (structures : List AdStructure) (tail : Bytes) :
    ofBytes (structures.flatMap toBytes ++ tail) =
      (structures ++ (split tail).1).foldl add {} := by
  rw [ofBytes, split_flatMap_toBytes_append]

/-- Two bytes in front of others are the first number. -/
theorem uuids16_little_append {n : Nat} (small : n < UInt16.size) (rest : Bytes) :
    uuids16 (ByteOrder.little.arrange (Bytes.ofNat 2 n) ++ rest) =
      UInt16.ofNat n :: uuids16 rest := by
  have bytes : ByteOrder.little.arrange (Bytes.ofNat 2 n) ++ rest =
      UInt8.ofNat n :: UInt8.ofNat (n / 256) :: rest := rfl
  rw [bytes, uuids16, List.cons.injEq]
  refine ⟨UInt16.toNat_inj.mp ?_, rfl⟩
  rw [Bytes.toNat_toUInt16_word_pair, UInt8.toNat_ofNat', UInt8.toNat_ofNat', UInt16.toNat_ofNat']
  unfold UInt16.size at small
  omega

end Summary

namespace Advertisement

open AdStructure

/-- The summary tells the code of the company or a UUID of two bytes, and the structure that holds
the payload, which is the last of the advertisement. -/
def ToldBy : Advertisement → List AdStructure → Summary → Prop
  | .manufacturer company _, structures, summary =>
    ∃ s, structures = [s] ∧ summary.company = some company ∧ summary.manufacturer = some s
  | .service uuid _, structures, summary =>
    ∃ listed s, structures = [listed, s] ∧ summary.serviceData = some s ∧
      (uuid.toNat < UInt16.size → summary.serviceUuids.head? = some uuid.toUInt16)

theorem toldBy_ofBytes_append {advertisement : Advertisement} {structures : List AdStructure}
    (h : advertisement.structures = .ok structures) (tail : Bytes) :
    advertisement.ToldBy structures
      (Summary.ofBytes (structures.flatMap AdStructure.toBytes ++ tail)) := by
  rw [Summary.ofBytes_flatMap_toBytes_append]
  cases advertisement with
  | manufacturer company payload =>
    obtain ⟨s, rfl, kind, body⟩ := structures_manufacturer h
    have first : s.isManufacturer := by
      simp [isManufacturer, kind, body, header, headerLength]
    have told : ((s :: (split tail).1).foldl Summary.add {}).manufacturer = some s := by
      rw [Summary.manufacturer_foldl_add, List.find?_cons_of_pos first]
    refine ⟨s, rfl, ?_, told⟩
    rw [List.singleton_append, Summary.company, told, Option.bind_some, body, header,
      Summary.uuids16_little_append company.toNat_lt, UInt16.ofNat_toNat, List.head?_cons]
  | service uuid payload =>
    obtain ⟨listed, s, rfl, listKind, listBody, kind, body⟩ := structures_service h
    have apart : ¬ listed.isService := by
      rw [isService, listKind]
      split <;> simp [allUuids16Kind, allUuids32Kind, serviceData16Kind, serviceData32Kind]
    have second : s.isService := by
      have long := two_le_length_uuidBytes uuid
      rw [isService, kind, body, List.length_append]
      split <;> simp [serviceData16Kind, serviceData32Kind] <;> omega
    refine ⟨listed, s, rfl, ?_, fun short => ?_⟩
    · rw [Summary.serviceData_foldl_add, List.cons_append, List.find?_cons_of_neg apart,
        List.cons_append, List.find?_cons_of_pos second]
    · rw [if_pos short] at listKind
      have lists : listed.listsUuids16 := by simp [listsUuids16, listKind]
      have number : Summary.uuids16 listed.body = [uuid.toUInt16] := by
        rw [listBody, uuidBytes, if_pos short]
        exact Summary.uuids16_little_append short []
      rw [Summary.serviceUuids_foldl_add, List.cons_append, List.filter_cons_of_pos lists,
        List.flatMap_cons, number]
      rfl

/-- What was framed is told, whatever follows it, and any AD structures that can be framed are
walked over as they are. -/
theorem framed_scanned :
    (∀ (advertisement : Advertisement) (bytes tail : Bytes), advertisement.toBytes = .ok bytes →
      ∃ structures, advertisement.structures = .ok structures ∧
        bytes = structures.flatMap AdStructure.toBytes ∧
        advertisement.ToldBy structures (Summary.ofBytes (bytes ++ tail))) ∧
    ∀ (parts : List (UInt8 × Bytes)) (structures : List AdStructure),
      parts.mapM (fun part => AdStructure.ofBody part.1 part.2) = .ok structures →
        split (structures.flatMap AdStructure.toBytes) = (structures, []) ∧
          structures.map (fun s => (s.kind, s.body)) = parts := by
  constructor
  · intro advertisement bytes tail sent
    obtain ⟨structures, frames, same⟩ := bind_eq_ok.mp sent
    cases same
    exact ⟨structures, frames, rfl, toldBy_ofBytes_append frames tail⟩
  · intro parts structures framed
    exact ⟨split_flatMap_toBytes structures, map_of_mapM_ofBody framed⟩

/-- The longest payload that can be framed, in front of data of another company. -/
theorem framed_scanned_longest :
    let sent := manufacturer 0x0118 (List.replicate 252 7)
    ∃ bytes structures, sent.toBytes = .ok bytes ∧ bytes.length = 256 ∧
      sent.structures = .ok structures ∧ bytes = structures.flatMap AdStructure.toBytes ∧
      sent.ToldBy structures (Summary.ofBytes (bytes ++ [3, 0xff, 1, 2])) := by
  intro sent
  have length : (sent.header ++ sent.payload).length = 254 := by
    rw [List.length_append, header, ByteOrder.length_arrange, Bytes.length_ofNat, payload,
      List.length_replicate]
  have short : (sent.header ++ sent.payload).length ≤ maxBodyLength := by
    rw [length, maxBodyLength]
  let s : AdStructure := ⟨manufacturerKind, sent.header ++ sent.payload, short⟩
  have frames : sent.structures = .ok [s] := by
    have framed : ofBody manufacturerKind (sent.header ++ sent.payload) = .ok s := dif_pos short
    exact congrArg (fun framing => do return [← framing]) framed
  have transmitted : sent.toBytes = .ok s.toBytes := by
    rw [toBytes, frames]
    exact congrArg Except.ok (List.append_nil _)
  obtain ⟨structures, told⟩ := framed_scanned.1 sent _ [3, 0xff, 1, 2] transmitted
  refine ⟨_, structures, transmitted, ?_, told⟩
  rw [AdStructure.toBytes, List.length_cons, List.length_cons, length]

end Advertisement

end Proximity
