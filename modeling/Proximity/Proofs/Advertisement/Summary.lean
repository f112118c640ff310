import Proximity.Proofs.Advertisement
import Mathlib.Data.List.Induction
import Mathlib.Data.List.ReduceOption
import Mathlib.Tactic.SplitIfs

/-! What is read of any data, however malformed. The data is made of AD structures and a rest that
starts with none in one way only, and its summary says of each kind of structure what the first, the
last or all of that kind say. The rest says nothing. -/

namespace Proximity

/-- The two bytes from offset `2 * k` on as a number, least significant byte first. -/
def Bytes.pairAt (bytes : Bytes) (k : Nat) : Nat :=
  (bytes.getD (2 * k) 0).toNat + 256 * (bytes.getD (2 * k + 1) 0).toNat

/-- The numbers that pairs of bytes are. A last byte alone is none. -/
def Bytes.pairs (bytes : Bytes) : List Nat := (List.range (bytes.length / 2)).map bytes.pairAt

namespace AdStructure

/-- The data starts with no structure: it is empty, or its length byte is zero or counts more bytes
than follow. -/
inductive Unfinished : Bytes → Prop
  | empty : Unfinished []
  | zero (rest : Bytes) : Unfinished (0 :: rest)
  | short {length : UInt8} {rest : Bytes} (less : rest.length < length.toNat) :
      Unfinished (length :: rest)

/-- The data is made of the structures and of a rest that starts with none. -/
structure Splits (data : Bytes) (structures : List AdStructure) (rest : Bytes) : Prop where
  data_eq : data = structures.flatMap toBytes ++ rest
  unfinished : Unfinished rest

theorem take?_eq_none {data : Bytes} (unfinished : Unfinished data) : take? data = none := by
  unfold take?
  split
  · refine dif_neg fun fits => ?_
    cases unfinished with
    | zero rest => exact absurd fits.1 (by decide)
    | short less =>
      rw [List.length_cons] at less
      omega
  · rfl

theorem unfinished_of_take? {data : Bytes} (h : take? data = none) : Unfinished data := by
  unfold take? at h
  split at h
  · rename_i length kind data
    split at h
    · cases h
    · rename_i cut
      by_cases zero : length = 0
      · exact zero ▸ .zero _
      · have positive : 0 < length.toNat :=
          Nat.pos_of_ne_zero fun h => zero (UInt8.toNat_inj.mp h)
        refine .short ?_
        rw [List.length_cons]
        omega
  · rename_i other
    match data with
    | [] => exact .empty
    | [length] =>
      by_cases zero : length = 0
      · exact zero ▸ .zero _
      · exact .short (Nat.pos_of_ne_zero fun h => zero (UInt8.toNat_inj.mp h))
    | length :: kind :: data => exact absurd rfl (other length kind data)

theorem eq_toBytes_append_of_take? {data rest : Bytes} {s : AdStructure}
    (h : take? data = some (s, rest)) : data = s.toBytes ++ rest := by
  unfold take? at h
  split at h
  · rename_i length kind data
    split at h
    · rename_i fits
      cases h
      have counted : (data.take (length.toNat - 1)).length + 1 = length.toNat := by
        rw [List.length_take]
        omega
      rw [toBytes, counted, UInt8.ofNat_toNat]
      simp
    · cases h
  · cases h

theorem split_of_unfinished {data : Bytes} (unfinished : Unfinished data) :
    split data = ([], data) := by
  rw [split]
  split
  · rfl
  · rename_i some
    rw [take?_eq_none unfinished] at some
    cases some

theorem splits_split (data : Bytes) : Splits data (split data).1 (split data).2 := by
  induction length : data.length using Nat.strong_induction_on generalizing data with
  | _ n ih =>
    cases taken : take? data with
    | none =>
      have unfinished := unfinished_of_take? taken
      rw [split_of_unfinished unfinished]
      exact ⟨rfl, unfinished⟩
    | some taken' =>
      obtain ⟨s, rest⟩ := taken'
      have shorter := length_of_take? taken
      obtain rfl := eq_toBytes_append_of_take? taken
      obtain ⟨data_eq, unfinished⟩ := ih rest.length (length ▸ shorter) rest rfl
      rw [split_append]
      refine ⟨?_, unfinished⟩
      rw [List.flatMap_cons, List.append_assoc, ← data_eq]

theorem split_eq_of_splits {data rest : Bytes} {structures : List AdStructure}
    (h : Splits data structures rest) : split data = (structures, rest) := by
  obtain ⟨rfl, unfinished⟩ := h
  rw [split_flatMap_toBytes_append, split_of_unfinished unfinished, List.append_nil]

theorem splits_iff {data rest : Bytes} {structures : List AdStructure} :
    Splits data structures rest ↔ split data = (structures, rest) := by
  refine ⟨split_eq_of_splits, fun same => ?_⟩
  have splits := splits_split data
  rw [same] at splits
  exact splits

/-- The structure is a list of 16-bit service UUIDs. -/
def listsUuids16 (s : AdStructure) : Bool := s.kind = someUuids16Kind ∨ s.kind = allUuids16Kind

def isFullName (s : AdStructure) : Bool := s.kind = fullNameKind

def isShortName (s : AdStructure) : Bool := s.kind = shortNameKind

/-- The structure holds data under the code of a company. -/
def isManufacturer (s : AdStructure) : Bool :=
  s.kind = manufacturerKind ∧ headerLength ≤ s.body.length

/-- The structure holds data of a service. -/
def isService (s : AdStructure) : Bool :=
  (s.kind = serviceData16Kind ∨ s.kind = serviceData32Kind) ∧ headerLength ≤ s.body.length

/-- The first short name that is a text. -/
def shortName? (structures : List AdStructure) : Option String :=
  (structures.filter isShortName).findSome? fun s => Utf8.read? s.body

end AdStructure

namespace Summary

open AdStructure

section Add

/- What one more structure changes of each thing that is told. -/
variable (summary : Summary) (s : AdStructure)

theorem flags_add :
    (summary.add s).flags = if s.kind = flagsKind then s.body.head? else summary.flags := by
  grind [add]

theorem serviceUuids_add : (summary.add s).serviceUuids =
    if s.listsUuids16 then (summary.serviceUuids ++ uuids16 s.body).take maxServiceUuids
    else summary.serviceUuids := by
  grind [add, listsUuids16, flagsKind, someUuids16Kind, allUuids16Kind]

theorem name_add : (summary.add s).name =
    if s.isFullName then Utf8.read? s.body
    else if s.isShortName then summary.name.or (Utf8.read? s.body)
    else summary.name := by
  grind [add, isFullName, isShortName, flagsKind, someUuids16Kind, allUuids16Kind, fullNameKind,
    shortNameKind]

theorem manufacturer_add : (summary.add s).manufacturer =
    summary.manufacturer.or (if s.isManufacturer then some s else none) := by
  grind [add, isManufacturer, flagsKind, someUuids16Kind, allUuids16Kind, fullNameKind,
    shortNameKind, manufacturerKind]

theorem serviceData_add : (summary.add s).serviceData =
    summary.serviceData.or (if s.isService then some s else none) := by
  grind [add, isService, flagsKind, someUuids16Kind, allUuids16Kind, fullNameKind, shortNameKind,
    manufacturerKind, serviceData16Kind, serviceData32Kind]

end Add

section Fold

variable {structures : List AdStructure}

theorem flags_foldl_add : (structures.foldl add {}).flags =
    (structures.filter (·.kind = flagsKind)).getLast?.bind (·.body.head?) := by
  induction structures using List.reverseRecOn with
  | nil => rfl
  | append_singleton structures s ih =>
    rw [List.foldl_concat, flags_add, ih, List.filter_append]
    by_cases kind : s.kind = flagsKind <;> simp [kind]

theorem serviceUuids_foldl_add : (structures.foldl add {}).serviceUuids =
    ((structures.filter listsUuids16).flatMap fun s => uuids16 s.body).take maxServiceUuids := by
  induction structures using List.reverseRecOn with
  | nil => rfl
  | append_singleton structures s ih =>
    rw [List.foldl_concat, serviceUuids_add, ih, List.filter_append, List.flatMap_append]
    cases lists : s.listsUuids16 with
    | false => simp [lists]
    | true =>
      -- What is over the limit stays out, whenever the list is cut.
      have cut (front back : List UInt16) (n : Nat) :
          (front.take n ++ back).take n = (front ++ back).take n := by
        simp only [List.take_append, List.take_take, List.length_take, Nat.min_self]
        congr 2
        omega
      simp [lists, cut]

theorem name_foldl_add (summary : Summary) (short : ∀ s ∈ structures, ¬ s.isFullName) :
    (structures.foldl add summary).name = summary.name.or (shortName? structures) := by
  induction structures generalizing summary with
  | nil => simp [shortName?]
  | cons s structures ih =>
    have notFull := short s List.mem_cons_self
    have later : shortName? (s :: structures) =
        (if s.isShortName then Utf8.read? s.body else none).or (shortName? structures) := by
      unfold shortName?
      by_cases isShort : s.isShortName
      · rw [List.filter_cons_of_pos isShort, List.findSome?_cons, if_pos isShort]
        cases Utf8.read? s.body <;> rfl
      · rw [List.filter_cons_of_neg isShort, if_neg isShort, Option.none_or]
    rw [List.foldl_cons, ih _ fun t member => short t (List.mem_cons_of_mem _ member), name_add,
      if_neg notFull, later, ← Option.or_assoc]
    by_cases isShort : s.isShortName <;> simp [isShort]

theorem manufacturer_foldl_add :
    (structures.foldl add {}).manufacturer = structures.find? isManufacturer := by
  induction structures using List.reverseRecOn with
  | nil => rfl
  | append_singleton structures s ih =>
    rw [List.foldl_concat, manufacturer_add, ih, List.find?_append, List.find?_singleton]

theorem serviceData_foldl_add :
    (structures.foldl add {}).serviceData = structures.find? isService := by
  induction structures using List.reverseRecOn with
  | nil => rfl
  | append_singleton structures s ih =>
    rw [List.foldl_concat, serviceData_add, ih, List.find?_append, List.find?_singleton]

end Fold

theorem map_toNat_uuids16 (body : Bytes) : (uuids16 body).map (·.toNat) = body.pairs := by
  fun_induction uuids16 body with
  | case1 low high rest ih =>
    have half : (low :: high :: rest).length / 2 = rest.length / 2 + 1 := by
      simp only [List.length_cons]
      omega
    rw [List.map_cons, Bytes.toNat_toUInt16_word_pair, ih, Bytes.pairs, Bytes.pairs, half,
      List.range_succ_eq_map, List.map_cons, List.map_map]
    rfl
  | case2 body short =>
    rcases body with _ | ⟨low, _ | ⟨high, rest⟩⟩
    · rfl
    · simp [Bytes.pairs]
    · exact absurd rfl (short low high rest)

/-- What structures say. -/
structure Reports (structures : List AdStructure) (summary : Summary) : Prop where
  flags : summary.flags =
    (structures.filter (·.kind = flagsKind)).getLast?.bind (·.body.head?)
  serviceUuids : summary.serviceUuids.map (·.toNat) =
    ((structures.filter listsUuids16).flatMap (·.body.pairs)).take maxServiceUuids
  /-- The last full name counts or, if it is no text, the first short name behind it that is. -/
  fullName : ∀ front s back, structures = front ++ s :: back → s.isFullName →
    (∀ t ∈ back, ¬ t.isFullName) → summary.name = (Utf8.read? s.body).or (shortName? back)
  shortName : (∀ s ∈ structures, ¬ s.isFullName) → summary.name = shortName? structures
  manufacturer : summary.manufacturer = structures.find? isManufacturer
  company : summary.company.map (·.toNat) =
    (structures.find? isManufacturer).map (·.body.pairAt 0)
  serviceData : summary.serviceData = structures.find? isService

theorem reports_foldl_add (structures : List AdStructure) :
    Reports structures (structures.foldl add {}) where
  flags := flags_foldl_add
  serviceUuids := by
    rw [serviceUuids_foldl_add, List.map_take, List.map_flatMap]
    simp only [map_toNat_uuids16]
  fullName := by
    rintro front s back rfl full last
    rw [List.foldl_append, List.foldl_cons, name_foldl_add _ last, name_add, if_pos full]
  shortName short := by rw [name_foldl_add _ short, Option.none_or]
  manufacturer := manufacturer_foldl_add
  company := by
    rw [company, manufacturer_foldl_add]
    cases found : structures.find? isManufacturer with
    | none => rfl
    | some s =>
      have holds : s.isManufacturer = true := List.find?_some found
      have long : 2 ≤ s.body.length := (of_decide_eq_true holds).2
      obtain ⟨half, positive⟩ : ∃ half, s.body.length / 2 = half + 1 :=
        ⟨s.body.length / 2 - 1, by omega⟩
      rw [Option.bind_some, ← List.head?_map, map_toNat_uuids16, Bytes.pairs, positive,
        List.range_succ_eq_map]
      rfl
  serviceData := serviceData_foldl_add

/-- There is one summary only that reports the structures. -/
theorem Reports.unique {structures : List AdStructure} {a b : Summary} (ha : Reports structures a)
    (hb : Reports structures b) : a = b := by
  have uuids : a.serviceUuids = b.serviceUuids :=
    (List.map_inj_right fun _ _ => UInt16.toNat_inj.mp).mp
      (ha.serviceUuids.trans hb.serviceUuids.symm)
  have name : a.name = b.name := by
    cases last : structures.reverse.find? isFullName with
    | none =>
      have short : ∀ s ∈ structures, ¬ s.isFullName := by simpa using last
      rw [ha.shortName short, hb.shortName short]
    | some s =>
      obtain ⟨full, back, front, split, others⟩ := List.find?_eq_some_iff_append.mp last
      have same : structures = front.reverse ++ s :: back.reverse := by
        rw [← List.reverse_inj, split]
        simp
      have short : ∀ t ∈ back.reverse, ¬ t.isFullName := by simpa using others
      rw [ha.fullName _ _ _ same full short, hb.fullName _ _ _ same full short]
  obtain ⟨flags, _, serviceUuids, manufacturer, serviceData⟩ := a
  cases b
  congr 1
  · exact ha.flags.trans hb.flags.symm
  · exact ha.manufacturer.trans hb.manufacturer.symm
  · exact ha.serviceData.trans hb.serviceData.symm

/-- Any data is made of AD structures and a rest that starts with none in one way only, and its
summary is the one that reports these structures, whatever the rest is. -/
theorem reports_iff_eq_ofBytes (data : Bytes) :
    (∃! parts : List AdStructure × Bytes, Splits data parts.1 parts.2) ∧
      ∀ structures rest, Splits data structures rest →
        ∀ summary, Reports structures summary ↔ summary = ofBytes data := by
  refine ⟨⟨split data, splits_split data, fun parts h => (splits_iff.mp h).symm⟩, ?_⟩
  intro structures rest splits summary
  have reports : Reports structures (ofBytes data) := by
    rw [ofBytes, splits_iff.mp splits]
    exact reports_foldl_add structures
  refine ⟨fun h => h.unique reports, ?_⟩
  rintro rfl
  exact reports

end Summary

end Proximity
