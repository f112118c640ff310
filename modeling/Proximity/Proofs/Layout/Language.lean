import Proximity.Proofs.Layout.Compile
import Mathlib.Data.List.TakeWhile

/-! The language of layouts. A text compiles exactly if its terms, set apart by commas and freed of
blanks, declare fields of which one is a matcher, one is a power, one or more are identifiers and at
most one is a service UUID, and then those are the fields of the layout. -/

namespace Proximity

namespace Blank

/-- The core is what the text has between the blanks at its ends. -/
structure Trimmed (text core : List Char) : Prop where
  around : ∃ front back, text = front ++ core ++ back ∧
    (∀ c ∈ front, isBlank c) ∧ ∀ c ∈ back, isBlank c
  first : ∀ c ∈ core.head?, ¬ isBlank c
  last : ∀ c ∈ core.getLast?, ¬ isBlank c

theorem not_isBlank_of_head?_dropWhile (text : List Char) {c : Char}
    (h : c ∈ (text.dropWhile isBlank).head?) : ¬ isBlank c := by
  have := List.head?_dropWhile_not isBlank text
  rw [Option.mem_def.mp h] at this
  simpa using this

theorem dropWhile_of_first {text : List Char} (first : ∀ c ∈ text.head?, ¬ isBlank c) :
    text.dropWhile isBlank = text := by
  cases text with
  | nil => rfl
  | cons c text => exact List.dropWhile_cons_of_neg (first c rfl)

theorem trimmed_trim (text : List Char) : Trimmed text (trim text) := by
  -- The blanks at the end are those in front of the reversed rest.
  obtain ⟨behind, split, blanks⟩ : ∃ behind, trim text ++ behind = text.dropWhile isBlank ∧
      ∀ c ∈ behind, isBlank c := by
    refine ⟨((text.dropWhile isBlank).reverse.takeWhile isBlank).reverse, ?_, fun c member => ?_⟩
    · rw [trim, ← List.reverse_append, List.takeWhile_append_dropWhile, List.reverse_reverse]
    · exact List.mem_takeWhile_imp (List.mem_reverse.mp member)
  constructor
  · refine ⟨text.takeWhile isBlank, behind, ?_, fun c => List.mem_takeWhile_imp, blanks⟩
    rw [List.append_assoc, split, List.takeWhile_append_dropWhile]
  · intro c isFirst
    refine not_isBlank_of_head?_dropWhile text ?_
    rw [← split, List.head?_append, Option.mem_def.mp isFirst]
    rfl
  · intro c isLast
    rw [trim, List.getLast?_reverse] at isLast
    exact not_isBlank_of_head?_dropWhile _ isLast

theorem trim_eq_iff {text core : List Char} : trim text = core ↔ Trimmed text core := by
  constructor
  · rintro rfl
    exact trimmed_trim text
  · rintro ⟨⟨front, back, rfl, before, behind⟩, first, last⟩
    rw [trim, List.append_assoc, List.dropWhile_append_of_pos before]
    cases core with
    | nil =>
      rw [List.nil_append, List.dropWhile_eq_nil_iff.mpr behind]
      rfl
    | cons c core =>
      have kept : (c :: core ++ back).dropWhile isBlank = c :: core ++ back :=
        dropWhile_of_first first
      rw [kept, List.reverse_append, List.dropWhile_append_of_pos (by simpa using behind),
        dropWhile_of_first (by rwa [List.head?_reverse]), List.reverse_reverse]

end Blank

theorem Cut.not_mem_of_mem_splitOn {mark : Char} {text piece : List Char}
    (h : piece ∈ text.splitOn mark) : mark ∉ piece := by
  rw [List.splitOn_eq_splitOnP] at h
  induction text generalizing piece with
  | nil =>
    rw [List.splitOnP_nil, List.mem_singleton] at h
    simp [h]
  | cons c text ih =>
    obtain ⟨first, others, split⟩ :=
      List.exists_cons_of_ne_nil (List.splitOnP_ne_nil (· == mark) text)
    rw [List.splitOnP_cons_eq_if_modifyHead, split] at h
    rw [split] at ih
    split at h
    · rcases List.mem_cons.mp h with rfl | later
      · exact List.not_mem_nil
      · exact ih later
    · rename_i other
      rcases List.mem_cons.mp h with rfl | later
      · have rest := ih List.mem_cons_self
        simp only [beq_iff_eq] at other
        simp [rest, Ne.symm other]
      · exact ih (List.mem_cons_of_mem _ later)

/-- There is one piece more than there are marks. -/
theorem Cut.length_splitOn (mark : Char) (text : List Char) :
    (text.splitOn mark).length = text.count mark + 1 := by
  induction text with
  | nil => rfl
  | cons c text ih =>
    rw [List.splitOn_cons_eq_if_modifyHead, List.count_cons]
    split
    · rw [List.length_cons, ih]
    · rw [List.length_modifyHead, ih, Nat.add_zero]

theorem exists_of_forall₂ {α β : Type} {R : α → β → Prop} {as : List α} {bs : List β}
    (related : List.Forall₂ R as bs) {b : β} (member : b ∈ bs) : ∃ a ∈ as, R a b := by
  induction related with
  | nil => cases member
  | cons first _ ih =>
    rcases List.mem_cons.mp member with rfl | later
    · exact ⟨_, List.mem_cons_self, first⟩
    · obtain ⟨a, among, relates⟩ := ih later
      exact ⟨a, List.mem_cons_of_mem _ among, relates⟩

namespace Layout

/-- The terms are set apart by commas in the source, with blanks around them. -/
def Lists (source : String) (terms : List (List Char)) : Prop :=
  ∃ pieces : List (List Char), pieces ≠ [] ∧ (∀ piece ∈ pieces, ',' ∉ piece) ∧
    source.toList = [','].intercalate pieces ∧ List.Forall₂ Blank.Trimmed pieces terms

/-- The terms of the source declare the fields, in order. -/
def Spells (source : String) (fields : List Field) : Prop :=
  ∃ terms, Lists source terms ∧ List.Forall₂ Field.Declares terms fields

/-- The fields make up a layout. -/
structure Complete (fields : List Field) : Prop where
  matcher : fields.countP (·.letter = 'm') = 1
  power : fields.countP (·.letter = 'p') = 1
  identifiers : 1 ≤ fields.countP (·.letter = 'i')
  service : fields.countP (·.letter = 's') ≤ 1

theorem lists_iff {source : String} {terms : List (List Char)} :
    Lists source terms ↔ Layout.terms source = terms := by
  have trims (pieces : List (List Char)) :
      List.Forall₂ Blank.Trimmed pieces terms ↔ pieces.map Blank.trim = terms := by
    rw [← List.forall₂_eq_eq_eq, List.forall₂_map_left_iff]
    simp only [Blank.trim_eq_iff]
  simp only [Lists, trims]
  constructor
  · rintro ⟨pieces, nonempty, apart, joined, rfl⟩
    rw [Layout.terms, joined, List.splitOn_intercalate _ apart nonempty]
  · intro same
    refine ⟨source.toList.splitOn ',', ?_, ?_, (List.intercalate_splitOn ',').symm, same⟩
    · exact List.splitOn_ne_nil ',' _
    · exact fun piece => Cut.not_mem_of_mem_splitOn

theorem lists_terms (source : String) : Lists source (terms source) := lists_iff.mpr rfl

theorem Lists.unique {source : String} {terms terms' : List (List Char)}
    (lists : Lists source terms) (lists' : Lists source terms') : terms = terms' :=
  (lists_iff.mp lists).symm.trans (lists_iff.mp lists')

theorem countP_letter {α : Type} {select : Field → Option α} {letter : Char}
    (same : ∀ field, (select field).isSome = decide (field.letter = letter))
    (fields : List Field) :
    fields.countP (·.letter = letter) = (fields.filterMap select).length := by
  rw [List.length_filterMap_eq_countP]
  congr 1
  funext field
  exact (same field).symm

theorem countP_matcher (fields : List Field) :
    fields.countP (·.letter = 'm') = (fields.filterMap Field.matcher?).length :=
  countP_letter (fun field => by cases field <;> rfl) fields

theorem countP_power (fields : List Field) :
    fields.countP (·.letter = 'p') = (fields.filterMap Field.power?).length :=
  countP_letter (fun field => by cases field <;> rfl) fields

theorem countP_identifier (fields : List Field) :
    fields.countP (·.letter = 'i') = (fields.filterMap Field.identifier?).length :=
  countP_letter (fun field => by cases field <;> rfl) fields

theorem countP_service (fields : List Field) :
    fields.countP (·.letter = 's') = (fields.filterMap Field.service?).length :=
  countP_letter (fun field => by cases field <;> rfl) fields

theorem complete_iff {fields : List Field} :
    Complete fields ↔ (fields.filterMap Field.matcher?).length = 1 ∧
      (fields.filterMap Field.power?).length = 1 ∧ fields.filterMap Field.identifier? ≠ [] ∧
        (fields.filterMap Field.service?).length ≤ 1 := by
  rw [← List.length_pos_iff, ← countP_matcher, ← countP_power, ← countP_identifier,
    ← countP_service]
  exact ⟨fun h => ⟨h.matcher, h.power, h.identifiers, h.service⟩,
    fun ⟨one, two, three, four⟩ => ⟨one, two, three, four⟩⟩

/-- There is one field at most of each kind of which a layout has one at most. -/
structure Single (fields : List Field) : Prop where
  matcher : (fields.filterMap Field.matcher?).length ≤ 1
  power : (fields.filterMap Field.power?).length ≤ 1
  service : (fields.filterMap Field.service?).length ≤ 1

theorem Single.of_append {fields later : List Field} (single : Single (fields ++ later)) :
    Single fields := by
  obtain ⟨matcher, power, service⟩ := single
  simp only [List.filterMap_append, List.length_append] at matcher power service
  exact ⟨by omega, by omega, by omega⟩

namespace Draft

theorem fields_of_add {draft draft' : Draft} {field : Field} (h : draft.add field = .ok draft') :
    draft'.fields = draft.fields ++ [field] := by
  unfold add at h
  cases field with
  | identifier place | data place =>
    cases h
    rfl
  | matcher _ | power _ | service _ =>
    obtain ⟨-, rfl⟩ := ite_eq_ok.mp h
    rfl

theorem WellFormed.exists_add {draft : Draft} {field : Field} (wf : draft.WellFormed)
    (single : Single (draft.fields ++ [field])) : ∃ draft', draft.add field = .ok draft' := by
  obtain ⟨matcher, power, service⟩ := single
  rw [List.filterMap_append, wf.matcher] at matcher
  rw [List.filterMap_append, wf.power] at power
  rw [List.filterMap_append, wf.service] at service
  cases field with
  | identifier place | data place => exact ⟨_, rfl⟩
  | matcher pattern =>
    cases held : draft.matcher with
    | none =>
      simp only [Draft.add, held]
      exact ⟨_, rfl⟩
    | some other => simp [held, Field.matcher?] at matcher
  | power span =>
    cases held : draft.power with
    | none =>
      simp only [Draft.add, held]
      exact ⟨_, rfl⟩
    | some other => simp [held, Field.power?] at power
  | service pattern =>
    cases held : draft.service with
    | none =>
      simp only [Draft.add, held]
      exact ⟨_, rfl⟩
    | some other => simp [held, Field.service?] at service

theorem addTerm_eq_ok_iff {draft draft' : Draft} {term : List Char} :
    draft.addTerm term = .ok draft' ↔ ∃ field, Field.Declares term field ∧
      draft.add field = .ok draft' := by
  unfold addTerm
  constructor
  · intro h
    split at h
    · cases h
    · rename_i field reads
      exact ⟨field, Field.read_eq_ok_iff.mp reads, h⟩
  · rintro ⟨field, declares, adds⟩
    rw [Field.read_eq_ok_iff.mpr declares]
    exact adds

theorem exists_declared {terms : List (List Char)} {draft draft' : Draft}
    (h : terms.foldlM addTerm draft = .ok draft') :
    ∃ fields, List.Forall₂ Field.Declares terms fields ∧
      draft'.fields = draft.fields ++ fields := by
  induction terms generalizing draft with
  | nil =>
    cases h
    exact ⟨[], .nil, (List.append_nil _).symm⟩
  | cons term terms ih =>
    rw [List.foldlM_cons] at h
    obtain ⟨middle, adds, h⟩ := bind_eq_ok.mp h
    obtain ⟨field, declares, adds⟩ := addTerm_eq_ok_iff.mp adds
    obtain ⟨fields, others, same⟩ := ih h
    refine ⟨field :: fields, .cons declares others, ?_⟩
    rw [same, fields_of_add adds, List.append_assoc]
    rfl

/-- Terms are added to a draft if there is no kind of which they declare too many. -/
theorem WellFormed.exists_foldlM {terms : List (List Char)} {fields : List Field}
    (declare : List.Forall₂ Field.Declares terms fields) {draft : Draft} (wf : draft.WellFormed)
    (single : Single (draft.fields ++ fields)) :
    ∃ draft', terms.foldlM Draft.addTerm draft = .ok draft' ∧
      draft'.fields = draft.fields ++ fields ∧ draft'.WellFormed := by
  induction declare generalizing draft with
  | nil => exact ⟨draft, rfl, (List.append_nil _).symm, wf⟩
  | @cons term field terms fields declares _ ih =>
    rw [List.append_cons] at single ⊢
    obtain ⟨middle, adds⟩ := wf.exists_add single.of_append
    have grown := fields_of_add adds
    have addsTerm := addTerm_eq_ok_iff.mpr ⟨field, declares, adds⟩
    rw [← grown] at single ⊢
    obtain ⟨draft', rest, same, wf'⟩ := ih (wf.addTerm addsTerm) single
    exact ⟨draft', by rw [List.foldlM_cons]; exact bind_eq_ok.mpr ⟨_, addsTerm, rest⟩, same, wf'⟩

theorem fields_of_finish {draft : Draft} {source : String} {layout : Layout}
    (h : draft.finish source = .ok layout) : layout.fields = draft.fields := by
  unfold finish at h
  split at h
  · cases h
  · cases h
  · split at h
    · cases h
      rfl
    · cases h

theorem WellFormed.exists_finish {draft : Draft} (source : String) (wf : draft.WellFormed)
    (matcher : (draft.fields.filterMap Field.matcher?).length = 1)
    (power : (draft.fields.filterMap Field.power?).length = 1)
    (identifiers : draft.fields.filterMap Field.identifier? ≠ []) :
    ∃ layout, draft.finish source = .ok layout := by
  rw [wf.matcher] at matcher
  rw [wf.power] at power
  obtain ⟨place, member⟩ := List.exists_mem_of_ne_nil _ identifiers
  obtain ⟨field, among, same⟩ := List.mem_filterMap.mp member
  have identified : draft.fields.any (·.identifier?.isSome) :=
    List.any_eq_true.mpr ⟨field, among, Option.isSome_of_eq_some same⟩
  unfold Draft.finish
  cases hasMatcher : draft.matcher with
  | none => simp [hasMatcher] at matcher
  | some pattern =>
    cases hasPower : draft.power with
    | none => simp [hasPower] at power
    | some span => exact ⟨_, if_pos identified⟩

end Draft

/-- The terms that make up a draft declare its fields. -/
theorem declared_of_foldlM {terms : List (List Char)} {draft : Draft}
    (adds : terms.foldlM Draft.addTerm {} = .ok draft) :
    List.Forall₂ Field.Declares terms draft.fields ∧ draft.WellFormed := by
  obtain ⟨fields, declare, same⟩ := Draft.exists_declared adds
  rw [List.nil_append] at same
  exact ⟨same ▸ declare, Draft.wellFormed_of_foldlM adds⟩

/-- Terms make up a draft if there is no kind of which they declare too many. -/
theorem exists_foldlM_of_single {terms : List (List Char)} {fields : List Field}
    (declare : List.Forall₂ Field.Declares terms fields) (single : Single fields) :
    ∃ draft, terms.foldlM Draft.addTerm {} = .ok draft ∧ draft.fields = fields ∧
      draft.WellFormed :=
  Draft.wellFormed_new.exists_foldlM declare single

theorem spells_of_compile {source : String} {layout : Layout}
    (compiled : compile source = .ok layout) : Spells source layout.fields := by
  obtain ⟨draft, adds, finishes⟩ := bind_eq_ok.mp compiled
  rw [Draft.fields_of_finish finishes]
  exact ⟨_, lists_terms source, (declared_of_foldlM adds).1⟩

/-- A text compiles if the fields that its terms declare make up a layout. -/
theorem exists_compile_of_spells {source : String} {fields : List Field}
    (spells : Spells source fields) (complete : Complete fields) :
    ∃ layout, compile source = .ok layout ∧ layout.fields = fields := by
  obtain ⟨terms, lists, declare⟩ := spells
  obtain ⟨matcher, power, identifiers, service⟩ := complete_iff.mp complete
  have single : Single fields := ⟨Nat.le_of_eq matcher, Nat.le_of_eq power, service⟩
  obtain ⟨draft, adds, rfl, wf⟩ := exists_foldlM_of_single declare single
  obtain ⟨layout, finishes⟩ := wf.exists_finish source matcher power identifiers
  refine ⟨layout, bind_eq_ok.mpr ⟨draft, ?_, finishes⟩, Draft.fields_of_finish finishes⟩
  rw [lists_iff.mp lists]
  exact adds

/-- The value of a service UUID was checked when its layout was compiled. -/
theorem value_service_lt {source : String} {layout : Layout}
    (compiled : compile source = .ok layout) {pattern : Pattern}
    (present : layout.service = some pattern) : Bytes.value pattern.expected < 2 ^ 32 := by
  have member := (wellFormed_of_compile compiled).service_mem present
  obtain ⟨terms, -, declare⟩ := spells_of_compile compiled
  obtain ⟨term, -, declares⟩ := exists_of_forall₂ declare member
  cases declares with
  | service spells small =>
    obtain ⟨_, _, _, _, _, -, expected⟩ := spells
    rw [expected, Bytes.value_ofNat]
    exact Nat.lt_of_le_of_lt (Nat.mod_le _ _) small

/-- A text compiles to a layout with the given fields exactly if its terms declare them and they
make up a layout. -/
theorem compile_iff_spells (source : String) (fields : List Field) :
    (∃ layout, compile source = .ok layout ∧ layout.fields = fields) ↔
      Spells source fields ∧ Complete fields := by
  constructor
  · rintro ⟨layout, compiled, rfl⟩
    have wf := wellFormed_of_compile compiled
    refine ⟨spells_of_compile compiled, ?_⟩
    rw [complete_iff, wf.matcher, wf.power, wf.service]
    exact ⟨rfl, rfl, wf.identifiers_ne_nil, Option.length_toList_le⟩
  · rintro ⟨spells, complete⟩
    exact exists_compile_of_spells spells complete

end Layout

end Proximity
