import Proximity.Layout.Decode
import Proximity.Proofs.Layout.Language
import Proximity.Proofs.Layout.Payload
import Proximity.Proofs.Text.Decimal

/-! Other spellings of a layout. Blanks around a term, the case of hexadecimal digits, zeros in
front of a number and a mark for the default byte order leave the fields of a text as they are, and
with them all that the layout reads and writes. -/

namespace Proximity

/-- The text has the core with blanks around it. -/
def Blank.Surrounds (text core : List Char) : Prop :=
  ∃ front back, text = front ++ core ++ back ∧ (∀ c ∈ front, isBlank c) ∧ ∀ c ∈ back, isBlank c

/-- The number is written with any more zeros in front. -/
def Pads (text text' : List Char) : Prop := ∃ k, text' = List.replicate k '0' ++ text

/-- The offset on either side of the dash is written with any more zeros in front. What follows the
second offset stays. -/
def PadsRange (text text' : List Char) : Prop :=
  ∃ before after before' after', text = before ++ '-' :: after ∧
    text' = before' ++ '-' :: after' ∧ Pads before before' ∧ Pads after after'

/-- The digits are written in any cases and with any more zeros in front. -/
def RespellsDigits (digits digits' : List Char) : Prop :=
  ∃ recased, List.Forall₂ Hex.SameButCase digits recased ∧ Pads recased digits'

theorem SpellsOffset.pad {text text' : List Char} {n : Nat} (spells : SpellsOffset text n)
    (pads : Pads text text') : SpellsOffset text' n := by
  obtain ⟨k, rfl⟩ := pads
  obtain ⟨digits, number, bounded⟩ := spells
  obtain ⟨digits', number'⟩ := Decimal.Numeral.zeros ⟨digits, number⟩ k
  exact ⟨digits', number', bounded⟩

/-- The offsets of a span are padded in front of a mark that follows it. -/
theorem SpellsSpan.pad {text mark text' : List Char} {span : Span} (spells : SpellsSpan text span)
    (noDash : '-' ∉ mark) (pads : PadsRange (text ++ mark) text') :
    ∃ range, text' = range ++ mark ∧ SpellsSpan range span := by
  obtain ⟨first, last, rfl, spellsFirst, spellsLast⟩ := spells
  obtain ⟨before, after, before', after', split, rfl, padsFirst, k, rfl⟩ := pads
  have noDashLast : '-' ∉ last ++ mark := fun member =>
    (List.mem_append.mp member).elim (spellsLast.not_mem rfl) noDash
  rw [List.append_assoc, List.cons_append,
    List.append_cons_inj_of_notMem (spellsFirst.not_mem rfl) noDashLast] at split
  obtain ⟨rfl, -, rfl⟩ := split
  exact ⟨before' ++ '-' :: (List.replicate k '0' ++ last), by simp, _, _, rfl,
    spellsFirst.pad padsFirst, spellsLast.pad ⟨k, rfl⟩⟩

/-- The offsets of a span are padded where nothing follows it. -/
theorem SpellsSpan.pad_self {text text' : List Char} {span : Span} (spells : SpellsSpan text span)
    (pads : PadsRange text text') : SpellsSpan text' span := by
  obtain ⟨range, rfl, spells'⟩ := spells.pad List.not_mem_nil ((List.append_nil text).symm ▸ pads)
  rwa [List.append_nil]

theorem SpellsPattern.respell {range range' digits digits' : List Char} {pattern : Pattern}
    {n : Nat} (spells : SpellsPattern (range ++ '=' :: digits) pattern n)
    (pads : PadsRange range range') (respells : RespellsDigits digits digits') :
    SpellsPattern (range' ++ '=' :: digits') pattern n := by
  obtain ⟨front, back, split, spellsSpan, numeral, small, expected⟩ := spells
  have noEquals := Field.not_equals_of_spellsSpan spellsSpan
  rw [eq_comm, List.append_cons_inj_of_notMem noEquals (numeral.not_mem rfl)] at split
  obtain ⟨rfl, -, rfl⟩ := split
  obtain ⟨recased, same, k, rfl⟩ := respells
  exact ⟨range', _, rfl, spellsSpan.pad_self pads, (numeral.sameButCase same).zeros k, small,
    expected⟩

namespace Field

/-- The term is spelled otherwise: with zeros in front of its numbers, with hexadecimal digits of
another case, or, if it is a data field's, with or without the mark for the default byte order. -/
inductive Respells : List Char → List Char → Prop
  | same {term : List Char} : Respells term term
  | pattern {letter : Char} {range range' digits digits' : List Char} :
    letter = 'm' ∨ letter = 's' → PadsRange range range' → RespellsDigits digits digits' →
      Respells (letter :: ':' :: (range ++ '=' :: digits))
        (letter :: ':' :: (range' ++ '=' :: digits'))
  | range {letter : Char} {text text' : List Char} :
    letter = 'i' ∨ letter = 'p' ∨ letter = 'd' → PadsRange text text' →
      Respells (letter :: ':' :: text) (letter :: ':' :: text')
  | marked {text text' : List Char} : text.getLast? ≠ some 'l' → text.getLast? ≠ some 'b' →
    PadsRange text text' → Respells ('d' :: ':' :: text) ('d' :: ':' :: (text' ++ ['b']))
  | unmarked {text text' : List Char} :
    PadsRange text text' → Respells ('d' :: ':' :: (text ++ ['b'])) ('d' :: ':' :: text')

/-- A term that is spelled otherwise declares the same field. -/
theorem Respells.declares {term term' : List Char} (respells : Respells term term')
    {field : Field} (declares : Declares term field) : Declares term' field := by
  cases respells with
  | same => exact declares
  | pattern kind pads digits =>
    rcases kind with rfl | rfl
    · cases declares with
      | matcher spells => exact .matcher (spells.respell pads digits)
    · cases declares with
      | service spells small => exact .service (spells.respell pads digits) small
  | range kind pads =>
    rcases kind with rfl | rfl | rfl
    · cases declares with
      | identifier spells => exact .identifier (spells.pad_self pads)
      | identifierLittle spells =>
        obtain ⟨range, rfl, spells'⟩ := spells.pad (by decide) pads
        exact .identifierLittle spells'
    · cases declares with
      | power spells => exact .power (spells.pad_self pads)
    · cases declares with
      | data spells => exact .data (spells.pad_self pads)
      | dataBig spells =>
        obtain ⟨range, rfl, spells'⟩ := spells.pad (by decide) pads
        exact .dataBig spells'
      | dataLittle spells =>
        obtain ⟨range, rfl, spells'⟩ := spells.pad (by decide) pads
        exact .dataLittle spells'
  | marked notLittle notBig pads =>
    cases declares with
    | data spells => exact .dataBig (spells.pad_self pads)
    | dataBig spells => exact absurd List.getLast?_concat notBig
    | dataLittle spells => exact absurd List.getLast?_concat notLittle
  | unmarked pads =>
    have reads := read_eq_ok_iff.mpr declares
    rw [read, dataOrder_big] at reads
    obtain ⟨span, readsSpan, same⟩ := bind_eq_ok.mp reads
    cases same
    exact .data ((readSpan_eq_ok_iff.mp readsSpan).pad_self pads)

/-- The character neither surrounds terms nor sets them apart. -/
def Plain (c : Char) : Prop := ¬ Blank.isBlank c ∧ c ≠ ','

instance (c : Char) : Decidable (Plain c) := inferInstanceAs (Decidable (_ ∧ _))

theorem plain_of_isDigit {c : Char} (digit : Hex.isDigit c) : Plain c := by
  have table : ∀ n < 128, Hex.isDigit (Char.ofNat n) → Plain (Char.ofNat n) := by
    decide +kernel
  obtain ⟨b, reads⟩ := Option.isSome_iff_exists.mp digit
  rw [← Char.ofNat_toNat c] at digit ⊢
  exact table _ (Hex.toNat_lt_of_digitValue? reads) digit

theorem plain_of_spellsSpan {text : List Char} {span : Span} (spells : SpellsSpan text span) :
    ∀ c ∈ text, Plain c := by
  intro c member
  rcases (mem_of_spellsSpan spells).1 c member with digit | rfl
  · exact plain_of_isDigit (Hex.isDigit_of_isDigit digit)
  · decide

theorem plain_of_spellsPattern {text : List Char} {pattern : Pattern} {n : Nat}
    (spells : SpellsPattern text pattern n) : ∀ c ∈ text, Plain c := by
  obtain ⟨range, digits, rfl, spellsSpan, numeral, -⟩ := spells
  have digit := (Hex.exists_numeral_iff.mp ⟨n, numeral⟩).2
  exact List.forall_mem_append.mpr ⟨plain_of_spellsSpan spellsSpan,
    List.forall_mem_cons.mpr ⟨by decide, fun c member => plain_of_isDigit (digit c member)⟩⟩

/-- Neither blanks nor commas stand in a term that declares a field. -/
theorem Declares.plain {term : List Char} {field : Field} (declares : Declares term field) :
    ∀ c ∈ term, Plain c := by
  have headed {letter : Char} {text : List Char} (kind : Plain letter)
      (body : ∀ c ∈ text, Plain c) : ∀ c ∈ letter :: ':' :: text, Plain c :=
    List.forall_mem_cons.mpr ⟨kind, List.forall_mem_cons.mpr ⟨by decide, body⟩⟩
  have marked {mark : Char} {text : List Char} (plain : Plain mark) (body : ∀ c ∈ text, Plain c) :
      ∀ c ∈ text ++ [mark], Plain c :=
    List.forall_mem_append.mpr ⟨body, List.forall_mem_singleton.mpr plain⟩
  cases declares with
  | matcher spells => exact headed (by decide) (plain_of_spellsPattern spells)
  | identifier spells => exact headed (by decide) (plain_of_spellsSpan spells)
  | identifierLittle spells =>
    exact marked (by decide) (headed (by decide) (plain_of_spellsSpan spells))
  | power spells => exact headed (by decide) (plain_of_spellsSpan spells)
  | data spells => exact headed (by decide) (plain_of_spellsSpan spells)
  | dataBig spells => exact marked (by decide) (headed (by decide) (plain_of_spellsSpan spells))
  | dataLittle spells => exact marked (by decide) (headed (by decide) (plain_of_spellsSpan spells))
  | service spells _ => exact headed (by decide) (plain_of_spellsPattern spells)

end Field

namespace Layout

/-- The source lists the same terms, spelled otherwise and with any blanks around them. -/
def Respells (source source' : String) : Prop :=
  ∃ terms terms' pieces, Lists source terms ∧ List.Forall₂ Field.Respells terms terms' ∧
    List.Forall₂ Blank.Surrounds pieces terms' ∧ source'.toList = [','].intercalate pieces

theorem Draft.finish_of_finish {draft : Draft} {source source' : String} {layout : Layout}
    (h : draft.finish source = .ok layout) :
    draft.finish source' = .ok { layout with source := source' } := by
  unfold Draft.finish at h ⊢
  split at h
  · cases h
  · cases h
  · split at h
    · rename_i identified
      cases h
      exact if_pos identified
    · cases h

theorem foldlM_addTerm {terms : List (List Char)} {fields : List Field}
    (declare : List.Forall₂ Field.Declares terms fields) (draft : Draft) :
    terms.foldlM Draft.addTerm draft = fields.foldlM Draft.add draft := by
  induction declare generalizing draft with
  | nil => rfl
  | @cons term field terms fields declares _ ih =>
    have adds : draft.addTerm term = draft.add field := by
      rw [Draft.addTerm, Field.read_eq_ok_iff.mpr declares]
    rw [List.foldlM_cons, List.foldlM_cons, adds]
    exact bind_congr ih

/-- Only the fields that its terms declare count when a text is compiled. -/
theorem compile_of_spells {source : String} {fields : List Field} (spells : Spells source fields) :
    compile source = fields.foldlM Draft.add {} >>= fun draft => draft.finish source := by
  obtain ⟨terms, lists, declare⟩ := spells
  rw [compile, lists_iff.mp lists, foldlM_addTerm declare]

theorem trimmed_of_surrounds {pieces terms : List (List Char)} {fields : List Field}
    (surround : List.Forall₂ Blank.Surrounds pieces terms)
    (declare : List.Forall₂ Field.Declares terms fields) :
    List.Forall₂ Blank.Trimmed pieces terms ∧ ∀ piece ∈ pieces, ',' ∉ piece := by
  induction surround generalizing fields with
  | nil => exact ⟨.nil, List.forall_mem_nil _⟩
  | @cons piece term pieces terms first _ ih =>
    cases declare with
    | cons declares others =>
      have plain := declares.plain
      obtain ⟨trimmed, apart⟩ := ih others
      refine ⟨.cons ⟨first, ?_, ?_⟩ trimmed, List.forall_mem_cons.mpr ⟨?_, apart⟩⟩
      · exact fun c isHead => (plain c (List.mem_of_mem_head? isHead)).1
      · exact fun c isLast => (plain c (List.mem_of_mem_getLast? isLast)).1
      · obtain ⟨front, back, rfl, blankFront, blankBack⟩ := first
        have noBlank : ¬ Blank.isBlank ',' := by decide
        simp only [List.mem_append, not_or]
        exact ⟨⟨fun member => noBlank (blankFront _ member), fun member => (plain _ member).2 rfl⟩,
          fun member => noBlank (blankBack _ member)⟩

theorem declares_of_respells {terms terms' : List (List Char)} {fields : List Field}
    (respelled : List.Forall₂ Field.Respells terms terms')
    (declare : List.Forall₂ Field.Declares terms fields) :
    List.Forall₂ Field.Declares terms' fields := by
  induction respelled generalizing fields with
  | nil => exact declare
  | cons first _ ih =>
    cases declare with
    | cons declares others => exact .cons (first.declares declares) (ih others)

/-- The fields that a text spells do not depend on its spelling. -/
theorem Respells.spells {source source' : String} (respells : Respells source source')
    {fields : List Field} (spells : Spells source fields) : Spells source' fields := by
  obtain ⟨terms, terms', pieces, lists, respelled, surround, joined⟩ := respells
  obtain ⟨same, lists', declare⟩ := spells
  obtain rfl := lists'.unique lists
  have declare' := declares_of_respells respelled declare
  obtain ⟨trimmed, apart⟩ := trimmed_of_surrounds surround declare'
  refine ⟨terms', ⟨pieces, ?_, apart, joined, trimmed⟩, declare'⟩
  rintro rfl
  cases surround
  cases respelled
  obtain ⟨parts, nonempty, -, -, trims⟩ := lists
  cases trims
  exact nonempty rfl

/-- A text that is spelled otherwise compiles to the same layout but for its source, and reads and
writes the same beacons. -/
theorem compile_respelled {source source' : String} (respells : Respells source source')
    {layout : Layout} (compiled : compile source = .ok layout) :
    compile source' = .ok { layout with source := source' } ∧
    (∀ data reception, ({ layout with source := source' } : Layout).decode data reception =
      layout.decode data reception) ∧
    ∀ beacon, ({ layout with source := source' } : Layout).encode beacon =
      layout.encode beacon := by
  refine ⟨?_, fun _ _ => rfl, fun _ => rfl⟩
  have spells := spells_of_compile compiled
  rw [compile_of_spells spells] at compiled
  obtain ⟨draft, adds, finishes⟩ := bind_eq_ok.mp compiled
  rw [compile_of_spells (respells.spells spells)]
  exact bind_eq_ok.mpr ⟨draft, adds, Draft.finish_of_finish finishes⟩

/-- A layout with a field of each kind. Of the data fields, one is marked for the default byte
order. -/
def spelledOut : Layout where
  source := "s:0-1=feaa,m:2-2=7,i:3-4l,p:5-5,d:6-7b,d:8-9"
  fields := [.service ⟨.behind 0 1, [0xfe, 0xaa]⟩, .matcher ⟨.behind 2 0, [0x07]⟩,
    .identifier ⟨.behind 3 1, .little⟩, .power (.behind 5 0),
    .data ⟨.behind 6 1, .big⟩, .data ⟨.behind 8 1, .big⟩]
  matcher := ⟨.behind 2 0, [0x07]⟩
  power := .behind 5 0
  service := some ⟨.behind 0 1, [0xfe, 0xaa]⟩

/-- Each term is spelled otherwise, or has blanks around it. -/
theorem compile_respelled_spelledOut :
    compile spelledOut.source = .ok spelledOut ∧
      compile "\ts:00-1=FEaa,m:2-02=07 ,i:03-4l,\np:5-5 ,d:6-007,d:8-9b" = .ok { spelledOut with
        source := "\ts:00-1=FEaa,m:2-02=07 ,i:03-4l,\np:5-5 ,d:6-007,d:8-9b" } := by
  have compiled : compile spelledOut.source = .ok spelledOut := by rfl
  have pads (text : List Char) : Pads text text := ⟨0, rfl⟩
  have bare (text : List Char) : Blank.Surrounds text text := ⟨[], [], by simp⟩
  have blank {c : Char} (isBlank : Blank.isBlank c) : ∀ other ∈ [c], Blank.isBlank other :=
    List.forall_mem_singleton.mpr isBlank
  have surround : List.Forall₂ Blank.Surrounds ["\ts:00-1=FEaa".toList, "m:2-02=07 ".toList,
      "i:03-4l".toList, "\np:5-5 ".toList, "d:6-007".toList, "d:8-9b".toList]
      ["s:00-1=FEaa".toList, "m:2-02=07".toList, "i:03-4l".toList, "p:5-5".toList,
      "d:6-007".toList, "d:8-9b".toList] :=
    .cons ⟨['\t'], [], rfl, blank rfl, List.forall_mem_nil _⟩
      (.cons ⟨[], [' '], rfl, List.forall_mem_nil _, blank rfl⟩
        (.cons (bare _) (.cons ⟨['\n'], [' '], rfl, blank rfl, blank rfl⟩
          (.cons (bare _) (.cons (bare _) .nil)))))
  have service : Field.Respells "s:0-1=feaa".toList "s:00-1=FEaa".toList :=
    @Field.Respells.pattern 's' "0-1".toList "00-1".toList "feaa".toList "FEaa".toList (.inr rfl)
      ⟨['0'], ['1'], ['0', '0'], ['1'], rfl, rfl, ⟨1, rfl⟩, pads _⟩
      ⟨"FEaa".toList, .cons (.inr (.inr rfl)) (.cons (.inr (.inr rfl)) (.cons (.inl rfl)
        (.cons (.inl rfl) .nil))), pads _⟩
  have matcher : Field.Respells "m:2-2=7".toList "m:2-02=07".toList :=
    @Field.Respells.pattern 'm' "2-2".toList "2-02".toList "7".toList "07".toList (.inl rfl)
      ⟨['2'], ['2'], ['2'], ['0', '2'], rfl, rfl, pads _, ⟨1, rfl⟩⟩
      ⟨['7'], .cons (.inl rfl) .nil, ⟨1, rfl⟩⟩
  have identifier : Field.Respells "i:3-4l".toList "i:03-4l".toList :=
    @Field.Respells.range 'i' "3-4l".toList "03-4l".toList (.inl rfl)
      ⟨['3'], ['4', 'l'], ['0', '3'], ['4', 'l'], rfl, rfl, ⟨1, rfl⟩, pads _⟩
  have unmarked : Field.Respells "d:6-7b".toList "d:6-007".toList :=
    @Field.Respells.unmarked "6-7".toList "6-007".toList
      ⟨['6'], ['7'], ['6'], ['0', '0', '7'], rfl, rfl, pads _, ⟨2, rfl⟩⟩
  have marked : Field.Respells "d:8-9".toList "d:8-9b".toList :=
    @Field.Respells.marked "8-9".toList "8-9".toList (by decide) (by decide)
      ⟨['8'], ['9'], ['8'], ['9'], rfl, rfl, pads _, pads _⟩
  have lists : Lists spelledOut.source ["s:0-1=feaa".toList, "m:2-2=7".toList, "i:3-4l".toList,
      "p:5-5".toList, "d:6-7b".toList, "d:8-9".toList] := lists_iff.mpr rfl
  exact ⟨compiled, (compile_respelled ⟨_, _, _, lists, .cons service (.cons matcher
    (.cons identifier (.cons .same (.cons unmarked (.cons marked .nil))))), surround, rfl⟩
      compiled).1⟩

/-- A data field takes one mark: behind a first one the mark for the default byte order is
refused. -/
theorem compile_marked_twice :
    ((∃ layout, compile "m:2-2=1,i:3-3,p:4-4,d:5-5l" = .ok layout) ∧
      ¬ ∃ layout, compile ("m:2-2=1,i:3-3,p:4-4,d:5-5l" ++ "b") = .ok layout) ∧
    (∃ layout, compile "m:2-2=1,i:3-3,p:4-4,d:5-5b" = .ok layout) ∧
      ¬ ∃ layout, compile ("m:2-2=1,i:3-3,p:4-4,d:5-5b" ++ "b") = .ok layout := by
  have refused {source : String} {e : LayoutError} (fails : compile source = .error e) :
      ¬ ∃ layout, compile source = .ok layout := by
    rintro ⟨layout, compiled⟩
    cases fails.symm.trans compiled
  exact ⟨⟨⟨_, rfl⟩, refused (e := .term "d:5-5lb" .form) rfl⟩, ⟨_, rfl⟩,
    refused (e := .term "d:5-5bb" .form) rfl⟩

end Layout

end Proximity
