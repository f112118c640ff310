import Proximity.Proofs.Layout.Faults
import Proximity.Proofs.Layout.Language

/-! Why a text declares no layout. The first term that declares no field, or one field too many of
its kind, decides the error, whatever follows it. If no term is wrong, the error names what the
fields lack, and terms that declare what is lacking complete the layout. -/

namespace Proximity.Layout

/-- There is a field of the kind. -/
def Has (fields : List Field) (letter : Char) : Prop := ∃ field ∈ fields, field.letter = letter

/-- The field is of a kind of which there may be one only, and the fields have one. -/
inductive Repeats (fields : List Field) (field : Field) : LayoutError → Prop
  | matcher : field.letter = 'm' → Has fields 'm' → Repeats fields field .matcherRepeated
  | power : field.letter = 'p' → Has fields 'p' → Repeats fields field .powerRepeated
  | service : field.letter = 's' → Has fields 's' → Repeats fields field .serviceRepeated

/-- The term is wrong behind others that declare the fields. -/
inductive Offends (fields : List Field) (term : List Char) : LayoutError → Prop
  | faulty {fault : TermFault} :
    Field.Faulty term fault → Offends fields term (.term (String.ofList term) fault)
  | repeats {field : Field} {e : LayoutError} :
    Field.Declares term field → Repeats fields field e → Offends fields term e

/-- Some term of the source is wrong, and the first such term is wrong for the given reason: those
before it declare fields of which none is repeated. -/
def Stops (source : String) (e : LayoutError) : Prop :=
  ∃ before term after fields, Lists source (before ++ term :: after) ∧
    List.Forall₂ Field.Declares before fields ∧ Single fields ∧ Offends fields term e

/-- What the fields lack. A matcher is missed first and an identifier last. -/
inductive Lacks (fields : List Field) : LayoutError → Prop
  | matcher : ¬ Has fields 'm' → Lacks fields .matcherMissing
  | power : Has fields 'm' → ¬ Has fields 'p' → Lacks fields .powerMissing
  | identifier : Has fields 'm' → Has fields 'p' → ¬ Has fields 'i' →
    Lacks fields .identifierMissing

/-- The kinds of fields that no layout is without. -/
def needed : List Char := ['m', 'p', 'i']

/-- Further fields are of exactly the kinds that are needed and missing. -/
structure Supplies (fields added : List Field) : Prop where
  missing : ∀ field ∈ added, field.letter ∈ needed ∧ ¬ Has fields field.letter
  all : ∀ letter ∈ needed, ¬ Has fields letter → Has added letter
  single : Single added

theorem has_iff {fields : List Field} {letter : Char} :
    Has fields letter ↔ 0 < fields.countP (·.letter = letter) := by
  simp [Has, List.countP_pos_iff]

theorem single_iff {fields : List Field} :
    Single fields ↔ fields.countP (·.letter = 'm') ≤ 1 ∧ fields.countP (·.letter = 'p') ≤ 1 ∧
      fields.countP (·.letter = 's') ≤ 1 := by
  rw [countP_matcher, countP_power, countP_service]
  exact ⟨fun h => ⟨h.matcher, h.power, h.service⟩, fun ⟨one, two, three⟩ => ⟨one, two, three⟩⟩

theorem has_identifier_iff (fields : List Field) :
    Has fields 'i' ↔ fields.any (·.identifier?.isSome) := by
  rw [List.any_eq_true]
  refine exists_congr fun field => and_congr_right fun _ => ?_
  cases field <;> simp [Field.letter, Field.identifier?]

theorem terms_append (source more : String) :
    terms (source ++ "," ++ more) = terms source ++ terms more := by
  rw [terms, String.toList_append, String.toList_append, List.append_assoc]
  exact (congrArg _ (List.splitOn_append_cons_self _ _)).trans List.map_append

theorem Lists.append {source more : String} {before after : List (List Char)}
    (lists : Lists source before) (listsMore : Lists more after) :
    Lists (source ++ "," ++ more) (before ++ after) := by
  rw [lists_iff, terms_append, lists_iff.mp lists, lists_iff.mp listsMore]

theorem Spells.append {source more : String} {fields added : List Field}
    (spells : Spells source fields) (spellsMore : Spells more added) :
    Spells (source ++ "," ++ more) (fields ++ added) := by
  obtain ⟨terms, lists, declare⟩ := spells
  obtain ⟨moreTerms, listsMore, declareMore⟩ := spellsMore
  exact ⟨_, lists.append listsMore, List.rel_append declare declareMore⟩

namespace Draft.WellFormed

variable {draft : Draft} (wf : draft.WellFormed) {field : Field} {term : List Char}
  {e : LayoutError}

include wf

theorem single : Single draft.fields := by
  constructor
  · rw [wf.matcher]
    exact Option.length_toList_le
  · rw [wf.power]
    exact Option.length_toList_le
  · rw [wf.service]
    exact Option.length_toList_le

theorem has_matcher_iff : Has draft.fields 'm' ↔ draft.matcher.isSome := by
  rw [has_iff, countP_matcher, wf.matcher]
  cases draft.matcher <;> simp

theorem has_power_iff : Has draft.fields 'p' ↔ draft.power.isSome := by
  rw [has_iff, countP_power, wf.power]
  cases draft.power <;> simp

theorem has_service_iff : Has draft.fields 's' ↔ draft.service.isSome := by
  rw [has_iff, countP_service, wf.service]
  cases draft.service <;> simp

/-- A field is refused only for being one too many. -/
theorem add_eq_error_iff : draft.add field = .error e ↔ Repeats draft.fields field e := by
  unfold Draft.add
  constructor
  · intro h
    cases field with
    | matcher pattern =>
      obtain ⟨has, rfl⟩ := ite_eq_error.mp h
      exact .matcher rfl (wf.has_matcher_iff.mpr has)
    | power span =>
      obtain ⟨has, rfl⟩ := ite_eq_error.mp h
      exact .power rfl (wf.has_power_iff.mpr has)
    | service pattern =>
      obtain ⟨has, rfl⟩ := ite_eq_error.mp h
      exact .service rfl (wf.has_service_iff.mpr has)
    | identifier place | data place => cases h
  · rintro (⟨kind, has⟩ | ⟨kind, has⟩ | ⟨kind, has⟩)
    · cases field <;> cases kind
      exact if_pos (wf.has_matcher_iff.mp has)
    · cases field <;> cases kind
      exact if_pos (wf.has_power_iff.mp has)
    · cases field <;> cases kind
      exact if_pos (wf.has_service_iff.mp has)

theorem addTerm_eq_error_iff : draft.addTerm term = .error e ↔ Offends draft.fields term e := by
  unfold Draft.addTerm
  cases read : Field.read term with
  | error fault =>
    have faulty := Field.read_eq_error_iff.mp read
    constructor
    · rintro ⟨⟩
      exact .faulty faulty
    · rintro (other | ⟨declares, -⟩)
      · cases read.symm.trans (Field.read_eq_error_iff.mpr other)
        rfl
      · cases read.symm.trans (Field.read_eq_ok_iff.mpr declares)
  | ok field =>
    have declares := Field.read_eq_ok_iff.mp read
    constructor
    · exact fun h => .repeats declares (wf.add_eq_error_iff.mp h)
    · rintro (faulty | ⟨other, repeats⟩)
      · cases read.symm.trans (Field.read_eq_error_iff.mpr faulty)
      · cases read.symm.trans (Field.read_eq_ok_iff.mpr other)
        exact wf.add_eq_error_iff.mpr repeats

/-- Fields of which none is repeated fail only for what they lack. -/
theorem finish_eq_error_iff {source : String} :
    draft.finish source = .error e ↔ Lacks draft.fields e := by
  have hasMatcher := wf.has_matcher_iff
  have hasPower := wf.has_power_iff
  unfold Draft.finish
  cases matcher : draft.matcher with
  | none =>
    have lacking : ¬ Has draft.fields 'm' := by simp [hasMatcher, matcher]
    constructor
    · rintro ⟨⟩
      exact .matcher lacking
    · rintro (_ | ⟨has, _⟩ | ⟨has, _, _⟩)
      · rfl
      · exact absurd has lacking
      · exact absurd has lacking
  | some pattern =>
    have has : Has draft.fields 'm' := by simp [hasMatcher, matcher]
    cases power : draft.power with
    | none =>
      have lacking : ¬ Has draft.fields 'p' := by simp [hasPower, power]
      constructor
      · rintro ⟨⟩
        exact .power has lacking
      · rintro (other | ⟨-, -⟩ | ⟨-, other, -⟩)
        · exact absurd has other
        · rfl
        · exact absurd other lacking
    | some span =>
      have hasToo : Has draft.fields 'p' := by simp [hasPower, power]
      have identified := has_identifier_iff draft.fields
      dsimp only
      constructor
      · intro h
        split at h
        · cases h
        · rename_i lacking
          cases h
          exact .identifier has hasToo fun found => lacking (identified.mp found)
      · rintro (other | ⟨-, other⟩ | ⟨-, -, lacking⟩)
        · exact absurd has other
        · exact absurd hasToo other
        · exact if_neg fun found => lacking (identified.mpr found)

end Draft.WellFormed

theorem foldlM_eq_error_iff_stops {source : String} {e : LayoutError} :
    (terms source).foldlM Draft.addTerm {} = .error e ↔ Stops source e := by
  simp only [foldlM_eq_error_iff, Stops, lists_iff]
  constructor
  · rintro ⟨before, term, after, draft, split, adds, fails⟩
    obtain ⟨declare, wf⟩ := declared_of_foldlM adds
    exact ⟨before, term, after, draft.fields, split, declare, wf.single,
      wf.addTerm_eq_error_iff.mp fails⟩
  · rintro ⟨before, term, after, fields, split, declare, single, offends⟩
    obtain ⟨draft, adds, rfl, wf⟩ := exists_foldlM_of_single declare single
    exact ⟨before, term, after, draft, split, adds, wf.addTerm_eq_error_iff.mpr offends⟩

theorem Stops.append {source : String} {e : LayoutError} (stops : Stops source e)
    (more : String) : Stops (source ++ "," ++ more) e := by
  obtain ⟨before, term, after, fields, lists, first⟩ := stops
  have longer := lists.append (lists_terms more)
  rw [List.append_assoc, List.cons_append] at longer
  exact ⟨before, term, after ++ terms more, fields, longer, first⟩

theorem compile_eq_error_iff {source : String} {e : LayoutError} :
    compile source = .error e ↔
      Stops source e ∨ ∃ fields, Spells source fields ∧ Single fields ∧ Lacks fields e := by
  rw [compile, bind_eq_error, foldlM_eq_error_iff_stops]
  refine or_congr_right ⟨?_, ?_⟩
  · rintro ⟨draft, adds, fails⟩
    obtain ⟨declare, wf⟩ := declared_of_foldlM adds
    exact ⟨draft.fields, ⟨_, lists_terms source, declare⟩, wf.single,
      wf.finish_eq_error_iff.mp fails⟩
  · rintro ⟨fields, ⟨terms, lists, declare⟩, single, lacks⟩
    obtain ⟨draft, adds, rfl, wf⟩ := exists_foldlM_of_single declare single
    rw [lists_iff.mp lists]
    exact ⟨draft, adds, wf.finish_eq_error_iff.mpr lacks⟩

namespace Supplies

variable {fields added : List Field} (supplies : Supplies fields added)

include supplies

theorem not_has {letter : Char} (has : Has fields letter) : ¬ Has added letter := by
  rintro ⟨field, member, rfl⟩
  exact (supplies.missing field member).2 has

theorem countP_eq_one {letter : Char} (among : letter ∈ needed)
    (few : fields.countP (·.letter = letter) ≤ 1)
    (fewAdded : added.countP (·.letter = letter) ≤ 1) :
    (fields ++ added).countP (·.letter = letter) = 1 := by
  rw [List.countP_append]
  by_cases has : Has fields letter
  · have none := supplies.not_has has
    rw [has_iff] at has none
    omega
  · have one := supplies.all letter among has
    rw [has_iff] at has one
    omega

theorem complete (single : Single fields) : Complete (fields ++ added) := by
  obtain ⟨matcher, power, service⟩ := single_iff.mp single
  obtain ⟨matcher', power', -⟩ := single_iff.mp supplies.single
  refine ⟨supplies.countP_eq_one (by decide) matcher matcher',
    supplies.countP_eq_one (by decide) power power', ?_, ?_⟩
  · rw [List.countP_append]
    by_cases has : Has fields 'i'
    · exact Nat.le_add_right_of_le (has_iff.mp has)
    · exact Nat.le_add_left_of_le (has_iff.mp (supplies.all 'i' (by decide) has))
  · have none : ¬ Has added 's' := by
      rintro ⟨field, member, kind⟩
      have among := (supplies.missing field member).1
      rw [kind] at among
      exact absurd among (by decide)
    rw [has_iff] at none
    rw [List.countP_append]
    omega

/-- Terms that declare what is missing complete the layout. -/
theorem exists_compile {source more : String} (spells : Spells source fields)
    (single : Single fields) (spellsMore : Spells more added) :
    ∃ layout, compile (source ++ "," ++ more) = .ok layout ∧ layout.fields = fields ++ added :=
  exists_compile_of_spells (spells.append spellsMore) (supplies.complete single)

end Supplies

/-- A text fails to compile either for its first wrong term, and then no matter what follows, or,
all its terms being right, for what they lack, and then it is completed by further terms that
declare exactly that. -/
theorem compile_fails_iff (source : String) (e : LayoutError) :
    compile source = .error e ↔
      (Stops source e ∧ ∀ more, compile (source ++ "," ++ more) = .error e) ∨
      ∃ fields, Spells source fields ∧ Single fields ∧ Lacks fields e ∧
        ∀ more added, Spells more added → Supplies fields added →
          ∃ layout, compile (source ++ "," ++ more) = .ok layout ∧
            layout.fields = fields ++ added := by
  rw [compile_eq_error_iff]
  constructor
  · rintro (stops | ⟨fields, spells, single, lacks⟩)
    · exact .inl ⟨stops, fun more => compile_eq_error_iff.mpr (.inl (stops.append more))⟩
    · exact .inr ⟨fields, spells, single, lacks, fun more added spellsMore supplies =>
        supplies.exists_compile spells single spellsMore⟩
  · rintro (⟨stops, -⟩ | ⟨fields, spells, single, lacks, -⟩)
    · exact .inl stops
    · exact .inr ⟨fields, spells, single, lacks⟩

end Proximity.Layout
