import Proximity.Proofs.Advertisement.Length
import Proximity.Proofs.Guarded.Operations

/-! AD structures written and walked over with operations that fault. None does: a body is short
enough for its length byte, and a structure is only looked into where all of it lies in the data. -/

namespace Proximity.Guarded

variable (size : Nat)

/-- The bytes of a structure, for which room is made first. -/
def toBytes (s : AdStructure) : Guarded Bytes := do
  let _room ← add size s.body.length 2
  return (← byte (← add size s.body.length 1)) :: s.kind :: s.body

/-- What was found so far, with the structures as they lie in the data. -/
structure Found where
  flags : Option UInt8 := none
  name : Option String := none
  serviceUuids : List UInt16 := []
  company : Option UInt16 := none
  manufacturer : Option Bytes := none
  serviceData : Option Bytes := none

def Found.ofSummary (summary : Summary) : Found where
  flags := summary.flags
  name := summary.name
  serviceUuids := summary.serviceUuids
  company := summary.company
  manufacturer := summary.manufacturer.map AdStructure.toBytes
  serviceData := summary.serviceData.map AdStructure.toBytes

/-- The number that the first two bytes are, least significant byte first. -/
def word16 (bytes : Bytes) : Guarded UInt16 := do
  let low ← get bytes 0
  let high ← get bytes 1
  return (Bytes.word [high, low]).toUInt16

/-- The bytes in pairs, without a last byte alone. -/
def pairs : Bytes → List Bytes
  | low :: high :: rest => [low, high] :: pairs rest
  | _ => []

open AdStructure in
/-- What is known after a structure, given with its type and body. -/
def Found.add (found : Found) (kind : UInt8) (body bytes : Bytes) : Guarded Found :=
  if kind = flagsKind then return { found with flags := body.head? }
  else if kind = someUuids16Kind ∨ kind = allUuids16Kind then do
    let uuids ← (pairs body).mapM word16
    return { found with serviceUuids := (found.serviceUuids ++ uuids).take maxServiceUuids }
  else if kind = shortNameKind ∨ kind = fullNameKind then
    if found.name.isNone ∨ kind = fullNameKind then
      return { found with name := Utf8.read? body }
    else return found
  else if kind = manufacturerKind ∧ headerLength ≤ body.length then
    if found.manufacturer.isNone then do
      let company ← word16 body
      return { found with company := some company, manufacturer := some bytes }
    else return found
  else if (kind = serviceData16Kind ∨ kind = serviceData32Kind) ∧ headerLength ≤ body.length then
    if found.serviceData.isNone then return { found with serviceData := some bytes }
    else return found
  else return found

/-- What is known after the structure at a position, and the position behind it. There is none where
the length is zero or reaches beyond the data. -/
def step (data : Bytes) (pos : Nat) (found : Found) : Guarded (Option (Nat × Found)) := do
  let length := (← get data pos).toNat
  if length = 0 then return none
  else
    let next ← add size (← add size pos 1) length
    if data.length < next then return none
    else
      let bytes ← slice data pos next
      let kind ← get bytes 1
      let body ← slice bytes 2 bytes.length
      return some (next, ← found.add kind body bytes)

variable {size}

theorem toBytes_eq_ok (large : 2 ^ 8 < size) (s : AdStructure) :
    toBytes size s = .ok s.toBytes := by
  have short := s.body_length_le
  unfold maxBodyLength at short
  rw [toBytes, add_eq_ok (by omega), ok_bind, add_eq_ok (by omega), ok_bind,
    byte_eq_ok (by unfold UInt8.size; omega)]
  rfl

theorem mapM_word16_pairs (body : Bytes) :
    (pairs body).mapM word16 = .ok (Summary.uuids16 body) := by
  induction body using pairs.induct with
  | case1 low high rest ih =>
    have first : word16 [low, high] = .ok (Bytes.word [high, low]).toUInt16 := rfl
    rw [pairs, List.mapM_cons, first, ok_bind, ih]
    rfl
  | case2 body alone =>
    rw [pairs, Summary.uuids16]
    · rfl
    · exact alone
    · exact alone

theorem word16_eq_ok {body : Bytes} (long : headerLength ≤ body.length) :
    ∃ n, word16 body = .ok n ∧ (Summary.uuids16 body).head? = some n := by
  match body, long with
  | low :: high :: rest, _ => exact ⟨_, rfl, rfl⟩

open AdStructure in
theorem add_eq_ok_ofSummary (summary : Summary) (s : AdStructure) :
    (Found.ofSummary summary).add s.kind s.body s.toBytes =
      .ok (Found.ofSummary (summary.add s)) := by
  unfold Found.add Summary.add
  by_cases flags : s.kind = flagsKind
  · rw [if_pos flags, if_pos flags]
    rfl
  rw [if_neg flags, if_neg flags]
  by_cases uuids : s.kind = someUuids16Kind ∨ s.kind = allUuids16Kind
  · rw [if_pos uuids, if_pos uuids, mapM_word16_pairs]
    rfl
  rw [if_neg uuids, if_neg uuids]
  by_cases full : s.kind = fullNameKind
  · rw [if_pos (.inr full), if_pos (.inr full), if_pos full]
    rfl
  by_cases short : s.kind = shortNameKind
  · rw [if_pos (.inl short), if_neg full, if_pos short]
    obtain ⟨_, name, _, _, _⟩ := summary
    cases name <;> simp [Found.ofSummary, full, Summary.company]
  rw [if_neg (by simp [full, short]), if_neg full, if_neg short]
  by_cases long : headerLength ≤ s.body.length
  · rw [if_neg (Nat.not_lt.mpr long)]
    by_cases manufacturer : s.kind = manufacturerKind
    · obtain ⟨n, reads, first⟩ := word16_eq_ok long
      rw [if_pos ⟨manufacturer, long⟩, if_pos manufacturer, reads]
      obtain ⟨_, _, _, known, _⟩ := summary
      cases known <;> simp [Found.ofSummary, Summary.company, first]
    · rw [if_neg fun both => manufacturer both.1, if_neg manufacturer]
      by_cases service : s.kind = serviceData16Kind ∨ s.kind = serviceData32Kind
      · rw [if_pos ⟨service, long⟩, if_pos service]
        obtain ⟨_, _, _, _, known⟩ := summary
        cases known <;> simp [Found.ofSummary, Summary.company]
      · rw [if_neg fun both => service both.1, if_neg service]
        rfl
  · rw [if_neg fun both => long both.2, if_neg fun both => long both.2, if_pos (by omega)]
    rfl

/-- The walk goes forward, and no further than to the end of the data. -/
theorem lt_of_step {data : Bytes} {pos next : Nat} {found later : Found}
    (steps : step size data pos found = .ok (some (next, later))) :
    pos < next ∧ next ≤ data.length := by
  unfold step at steps
  obtain ⟨length, -, steps⟩ := bind_eq_ok.mp steps
  dsimp only at steps
  split at steps
  · cases steps
  · rename_i nonzero
    obtain ⟨behind, adds, steps⟩ := bind_eq_ok.mp steps
    obtain ⟨stop, adds', steps⟩ := bind_eq_ok.mp steps
    split at steps
    · cases steps
    · rename_i inside
      obtain ⟨bytes, -, steps⟩ := bind_eq_ok.mp steps
      obtain ⟨kind, -, steps⟩ := bind_eq_ok.mp steps
      obtain ⟨body, -, steps⟩ := bind_eq_ok.mp steps
      obtain ⟨known, -, steps⟩ := bind_eq_ok.mp steps
      cases steps
      rw [eq_of_add_eq_ok adds', eq_of_add_eq_ok adds] at inside ⊢
      omega

variable (size) in
/-- What the structures from a position on tell, in addition to what was found before. -/
def scan (data : Bytes) (pos : Nat) (found : Found) : Guarded Found :=
  if pos < data.length then
    match steps : step size data pos found with
    | .error fault => .error fault
    | .ok none => .ok found
    | .ok (some (next, later)) =>
      have := lt_of_step steps
      scan data next later
  else .ok found
termination_by data.length - pos

theorem scan_of_step_eq_none {data : Bytes} {pos : Nat} {found : Found}
    (inside : pos < data.length) (stops : step size data pos found = .ok none) :
    scan size data pos found = .ok found := by
  rw [scan, if_pos inside]
  split <;> rename_i steps <;> rw [stops] at steps <;> cases steps

theorem scan_of_step_eq_some {data : Bytes} {pos next : Nat} {found later : Found}
    (inside : pos < data.length) (goes : step size data pos found = .ok (some (next, later))) :
    scan size data pos found = scan size data next later := by
  rw [scan, if_pos inside]
  split <;> rename_i steps <;> rw [goes] at steps <;> cases steps
  rfl

section

variable {data rest : Bytes} {pos : Nat} {found : Found} {summary : Summary} {s : AdStructure}
  (countable : data.length + 2 ^ 8 ≤ size) (inside : pos < data.length)

include countable inside

theorem step_eq_none (nothing : AdStructure.take? (data.drop pos) = none) :
    step size data pos found = .ok none := by
  have unfinished := AdStructure.unfinished_of_take? nothing
  have length : (data.drop pos).length = data.length - pos := List.length_drop
  have first : (data.drop pos)[0]? = data[pos]? := by rw [List.getElem?_drop, Nat.add_zero]
  generalize data.drop pos = tail at unfinished length first
  cases unfinished with
  | empty =>
    rw [List.length_nil] at length
    omega
  | zero rest =>
    rw [step, get_eq_ok first.symm]
    rfl
  | @short count rest less =>
    have small := count.toNat_lt
    rw [List.length_cons] at length
    rw [step, get_eq_ok first.symm, ok_bind]
    dsimp only
    rw [if_neg (by omega), add_eq_ok (by omega), ok_bind, add_eq_ok (by omega), ok_bind,
      if_pos (by omega)]
    rfl

theorem step_eq_some (taken : AdStructure.take? (data.drop pos) = some (s, rest)) :
    step size data pos (Found.ofSummary summary) =
        .ok (some (pos + s.toBytes.length, Found.ofSummary (summary.add s))) ∧
      data.drop (pos + s.toBytes.length) = rest := by
  have split := AdStructure.eq_toBytes_append_of_take? taken
  have short := s.body_length_le
  unfold maxBodyLength at short
  have length : s.toBytes.length = s.body.length + 2 := by simp [AdStructure.toBytes]
  have fits : s.toBytes.length + rest.length = data.length - pos := by
    rw [← List.length_append, ← split, List.length_drop]
  have first : data[pos]? = some s.lengthByte := by
    rw [← Nat.add_zero pos, ← List.getElem?_drop, split]
    rfl
  have cut : data.extract pos (pos + s.toBytes.length) = s.toBytes := by
    rw [List.extract_eq_take_drop, split, Nat.add_sub_cancel_left, List.take_left]
  have body : s.toBytes.extract 2 s.toBytes.length = s.body := by
    rw [List.extract_eq_take_drop, length]
    exact List.take_length
  constructor
  · rw [step, get_eq_ok first, ok_bind, s.toNat_lengthByte]
    dsimp only
    rw [if_neg (Nat.succ_ne_zero _), add_eq_ok (by omega), ok_bind, add_eq_ok (by omega), ok_bind,
      show pos + 1 + (s.body.length + 1) = pos + s.toBytes.length by omega, if_neg (by omega),
      slice_eq_ok (Nat.le_add_right _ _) (by omega), ok_bind, cut, get_eq_ok (b := s.kind) rfl,
      ok_bind, slice_eq_ok (by omega) (Nat.le_refl _), ok_bind, body, add_eq_ok_ofSummary]
    rfl
  · rw [← List.drop_drop, split, List.drop_left]

end

/-- The walk by positions finds what the structures that the rest of the data starts with say. -/
theorem scan_eq_ok {data : Bytes} (countable : data.length + 2 ^ 8 ≤ size) (pos : Nat)
    (summary : Summary) :
    scan size data pos (Found.ofSummary summary) =
      .ok (Found.ofSummary ((AdStructure.split (data.drop pos)).1.foldl Summary.add summary)) := by
  induction left : data.length - pos using Nat.strong_induction_on generalizing pos summary with
  | _ left ih =>
    by_cases inside : pos < data.length
    · cases taken : AdStructure.take? (data.drop pos) with
      | none =>
        rw [scan_of_step_eq_none inside (step_eq_none countable inside taken),
          AdStructure.split_of_unfinished (AdStructure.unfinished_of_take? taken)]
        rfl
      | some parts =>
        obtain ⟨s, rest⟩ := parts
        obtain ⟨goes, behind⟩ := @step_eq_some size data rest pos summary s countable inside taken
        obtain ⟨forward, -⟩ := lt_of_step goes
        rw [scan_of_step_eq_some inside goes, ih _ (by omega) _ _ rfl, behind,
          AdStructure.eq_toBytes_append_of_take? taken, AdStructure.split_append, List.foldl_cons]
    · rw [scan, if_neg inside, List.drop_eq_nil_of_le (Nat.le_of_not_lt inside),
        AdStructure.split_of_unfinished .empty]
      rfl

end Proximity.Guarded
