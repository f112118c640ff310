import Proximity.Proofs.Layout.Grammar

/-! What compiling a text guarantees of the layout: the fields that are set apart are the only ones
of their kinds, and expected bytes fill their fields. -/

namespace Proximity

namespace Field

/-- The bytes by which a beacon type is recognised. -/
def matcher? : Field → Option Pattern
  | .matcher pattern => some pattern
  | _ => none

def power? : Field → Option Span
  | .power span => some span
  | _ => none

def service? : Field → Option Pattern
  | .service pattern => some pattern
  | _ => none

/-- The field lies within the greatest offset, and bytes that it expects fill it. -/
structure WellFormed (field : Field) : Prop where
  last_le : field.place.span.last ≤ maxOffset
  expected_length : ∀ bytes ∈ field.expected?, bytes.length = field.place.span.width

/-- What a term declares is well formed. -/
theorem Declares.wellFormed {term : List Char} {field : Field} (declares : Declares term field) :
    field.WellFormed := by
  cases declares with
  | matcher spells | service spells _ =>
    exact ⟨spells.last_le, by rintro _ ⟨⟩; exact spells.length_expected⟩
  | identifier spells | identifierLittle spells | power spells | data spells | dataBig spells
  | dataLittle spells =>
    exact ⟨spells.last_le, by rintro _ ⟨⟩⟩

end Field

namespace Layout

/-- The draft sets apart what its fields hold, and its fields are well formed. -/
structure Draft.WellFormed (draft : Draft) : Prop where
  matcher : draft.fields.filterMap Field.matcher? = draft.matcher.toList
  power : draft.fields.filterMap Field.power? = draft.power.toList
  service : draft.fields.filterMap Field.service? = draft.service.toList
  fields : ∀ field ∈ draft.fields, field.WellFormed

theorem Draft.WellFormed.add {draft draft' : Draft} {field : Field} (wf : draft.WellFormed)
    (valid : field.WellFormed) (h : draft.add field = .ok draft') : draft'.WellFormed := by
  have fields : ∀ other ∈ draft.fields ++ [field], other.WellFormed := by
    intro other member
    rcases List.mem_append.mp member with old | new
    · exact wf.fields other old
    · rwa [List.mem_singleton.mp new]
  unfold Draft.add at h
  cases field with
  | matcher pattern =>
    obtain ⟨absent, rfl⟩ := ite_eq_ok.mp h
    have none := wf.matcher
    rw [Option.not_isSome_iff_eq_none.mp absent] at none
    exact ⟨by simp [Field.matcher?, none], by simp [Field.power?, wf.power],
      by simp [Field.service?, wf.service], fields⟩
  | power span =>
    obtain ⟨absent, rfl⟩ := ite_eq_ok.mp h
    have none := wf.power
    rw [Option.not_isSome_iff_eq_none.mp absent] at none
    exact ⟨by simp [Field.matcher?, wf.matcher], by simp [Field.power?, none],
      by simp [Field.service?, wf.service], fields⟩
  | service pattern =>
    obtain ⟨absent, rfl⟩ := ite_eq_ok.mp h
    have none := wf.service
    rw [Option.not_isSome_iff_eq_none.mp absent] at none
    exact ⟨by simp [Field.matcher?, wf.matcher], by simp [Field.power?, wf.power],
      by simp [Field.service?, none], fields⟩
  | identifier place | data place =>
    cases h
    exact ⟨by simp [Field.matcher?, wf.matcher], by simp [Field.power?, wf.power],
      by simp [Field.service?, wf.service], fields⟩

theorem Draft.WellFormed.addTerm {draft draft' : Draft} {term : List Char} (wf : draft.WellFormed)
    (h : draft.addTerm term = .ok draft') : draft'.WellFormed := by
  unfold Draft.addTerm at h
  split at h
  · cases h
  · rename_i field reads
    exact wf.add (Field.read_eq_ok_iff.mp reads).wellFormed h

/-- The fields that a layout sets apart are the only ones of their kinds, it has an identifier, and
its fields are well formed. -/
structure WellFormed (layout : Layout) : Prop where
  matcher : layout.fields.filterMap Field.matcher? = [layout.matcher]
  power : layout.fields.filterMap Field.power? = [layout.power]
  service : layout.fields.filterMap Field.service? = layout.service.toList
  identifiers_ne_nil : layout.identifiers ≠ []
  fields : ∀ field ∈ layout.fields, field.WellFormed

theorem Draft.WellFormed.finish {draft : Draft} {source : String} {layout : Layout}
    (wf : draft.WellFormed) (h : draft.finish source = .ok layout) : layout.WellFormed := by
  unfold Draft.finish at h
  split at h
  · cases h
  · cases h
  · rename_i matcher power hasMatcher hasPower
    split at h
    · rename_i identified
      cases h
      obtain ⟨field, member, some⟩ := List.any_eq_true.mp identified
      obtain ⟨place, same⟩ := Option.isSome_iff_exists.mp some
      have matchers := wf.matcher
      have powers := wf.power
      rw [hasMatcher] at matchers
      rw [hasPower] at powers
      exact ⟨matchers, powers, wf.service,
        List.ne_nil_of_mem (List.mem_filterMap.mpr ⟨field, member, same⟩), wf.fields⟩
    · cases h

theorem Draft.wellFormed_new : Draft.WellFormed {} := ⟨rfl, rfl, rfl, by simp⟩

theorem Draft.wellFormed_of_foldlM {terms : List (List Char)} {draft : Draft}
    (adds : terms.foldlM Draft.addTerm {} = .ok draft) : draft.WellFormed :=
  foldlM_invariant (fun _ _ _ wf adds => Draft.WellFormed.addTerm wf adds) Draft.wellFormed_new adds

/-- Compiling a text gives a layout that is well formed. -/
theorem wellFormed_of_compile {source : String} {layout : Layout}
    (h : compile source = .ok layout) : layout.WellFormed := by
  obtain ⟨draft, adds, finishes⟩ := bind_eq_ok.mp h
  exact (Draft.wellFormed_of_foldlM adds).finish finishes

theorem le_lastOffset {layout : Layout} {field : Field} (member : field ∈ layout.fields) :
    field.place.span.last ≤ layout.lastOffset := by
  unfold lastOffset
  generalize layout.fields = fields at member ⊢
  induction fields with
  | nil => cases member
  | cons other fields ih =>
    rw [List.map_cons, List.foldr_cons]
    rcases List.mem_cons.mp member with rfl | later
    · exact Nat.le_max_left _ _
    · exact Nat.le_trans (ih later) (Nat.le_max_right _ _)

theorem lastOffset_le {layout : Layout} {bound : Nat}
    (within : ∀ field ∈ layout.fields, field.place.span.last ≤ bound) :
    layout.lastOffset ≤ bound := by
  unfold lastOffset
  generalize layout.fields = fields at within ⊢
  induction fields with
  | nil => exact Nat.zero_le bound
  | cons field fields ih =>
    rw [List.map_cons, List.foldr_cons]
    exact Nat.max_le.mpr ⟨within field List.mem_cons_self,
      ih fun other member => within other (List.mem_cons_of_mem _ member)⟩

/-- Some field ends at the last offset. -/
theorem exists_last_eq_lastOffset {layout : Layout} (nonempty : layout.fields ≠ []) :
    ∃ field ∈ layout.fields, field.place.span.last = layout.lastOffset := by
  unfold lastOffset
  generalize layout.fields = fields at nonempty ⊢
  induction fields with
  | nil => exact absurd rfl nonempty
  | cons field fields ih =>
    rw [List.map_cons, List.foldr_cons]
    rcases Nat.le_total ((fields.map (·.place.span.last)).foldr max 0) field.place.span.last with
      here | later
    · exact ⟨field, List.mem_cons_self, (Nat.max_eq_left here).symm⟩
    · rw [Nat.max_eq_right later]
      by_cases last : fields = []
      · subst last
        exact ⟨field, List.mem_cons_self, Nat.le_zero.mp later⟩
      · obtain ⟨other, member, same⟩ := ih last
        exact ⟨other, List.mem_cons_of_mem _ member, same⟩

theorem last_le_of_mem_filterMap {layout : Layout} {place : Place} {select : Field → Option Place}
    (selects : ∀ field, select field = some place → field.place = place)
    (member : place ∈ layout.fields.filterMap select) :
    place.span.last ≤ layout.lastOffset := by
  obtain ⟨field, among, same⟩ := List.mem_filterMap.mp member
  rw [← selects field same]
  exact le_lastOffset among

theorem last_le_of_mem_identifiers {layout : Layout} {place : Place}
    (member : place ∈ layout.identifiers) : place.span.last ≤ layout.lastOffset := by
  refine last_le_of_mem_filterMap (fun field same => ?_) member
  cases field <;> cases same
  rfl

theorem last_le_of_mem_dataFields {layout : Layout} {place : Place}
    (member : place ∈ layout.dataFields) : place.span.last ≤ layout.lastOffset := by
  refine last_le_of_mem_filterMap (fun field same => ?_) member
  cases field <;> cases same
  rfl

namespace WellFormed

variable {layout : Layout} (wf : layout.WellFormed)

include wf

theorem matcher_mem : .matcher layout.matcher ∈ layout.fields := by
  have : layout.matcher ∈ layout.fields.filterMap Field.matcher? := by simp [wf.matcher]
  obtain ⟨field, member, same⟩ := List.mem_filterMap.mp this
  cases field <;> simp_all [Field.matcher?]

theorem power_mem : .power layout.power ∈ layout.fields := by
  have : layout.power ∈ layout.fields.filterMap Field.power? := by simp [wf.power]
  obtain ⟨field, member, same⟩ := List.mem_filterMap.mp this
  cases field <;> simp_all [Field.power?]

theorem eq_matcher {pattern : Pattern} (h : .matcher pattern ∈ layout.fields) :
    pattern = layout.matcher := by
  have : pattern ∈ layout.fields.filterMap Field.matcher? := List.mem_filterMap.mpr ⟨_, h, rfl⟩
  simpa [wf.matcher] using this

theorem eq_power {span : Span} (h : .power span ∈ layout.fields) : span = layout.power := by
  have : span ∈ layout.fields.filterMap Field.power? := List.mem_filterMap.mpr ⟨_, h, rfl⟩
  simpa [wf.power] using this

theorem service_mem {pattern : Pattern} (h : layout.service = some pattern) :
    .service pattern ∈ layout.fields := by
  have : pattern ∈ layout.fields.filterMap Field.service? := by simp [wf.service, h]
  obtain ⟨field, member, same⟩ := List.mem_filterMap.mp this
  cases field <;> simp_all [Field.service?]

theorem matcher_length : layout.matcher.expected.length = layout.matcher.span.width :=
  (wf.fields _ wf.matcher_mem).expected_length _ rfl

theorem service_length {pattern : Pattern} (h : layout.service = some pattern) :
    pattern.expected.length = pattern.span.width :=
  (wf.fields _ (wf.service_mem h)).expected_length _ rfl

end WellFormed

end Layout

end Proximity
