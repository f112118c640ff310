import Proximity.Proofs.Bytes
import Proximity.Proofs.Guarded.Operations
import Proximity.Proofs.Layout.Compile

/-! Layouts compiled with operations that fault. Whatever the text, none does: the offsets of a term
are small and in order before its width is taken, and a value is cut to the width before it is
padded. -/

namespace Proximity.Guarded

variable (size : Nat)

/-- The number of bytes of a span. -/
def width (span : Span) : Guarded Nat := do add size (← sub span.last span.first) 1

/-- The bytes without as many leading zeros as there are bytes too many. -/
def strip (width : Nat) (bytes : Bytes) : Guarded Bytes :=
  if width < bytes.length then do
    let first ← get bytes 0
    if first = 0 then strip width (bytes.drop 1) else return bytes
  else return bytes
termination_by bytes.length
decreasing_by
  rw [List.length_drop]
  omega

def readExpected (width most : Nat) (digits : List Char) : Guarded (Except TermFault Bytes) :=
  match Hex.read? digits with
  | none => return .error .hex
  | some bytes => do
    let bytes ← strip width bytes
    if width < bytes.length ∨ most < (bytes.dropWhile (· == 0)).length then return .error .width
    else return .ok (List.replicate (← sub width bytes.length) 0 ++ bytes)

def readPattern (most : Nat → Nat) (text : List Char) : Guarded (Except TermFault Pattern) :=
  match Cut.atFirst? '=' text with
  | none => return .error .form
  | some (before, after) =>
    match Field.readSpan before with
    | .error fault => return .error fault
    | .ok span => do
      let expected ← readExpected (← width size span) (most span.width) after
      return expected.map (⟨span, ·⟩)

/-- The field that a term declares. Only expected bytes are indexed or measured. -/
def read : List Char → Guarded (Except TermFault Field)
  | 'm' :: ':' :: body => return (← readPattern size id body).map .matcher
  | 's' :: ':' :: body => return (← readPattern size (min maxServiceUuidLength) body).map .service
  | term => return Field.read term

/-- The draft with the fields of further terms, up to the first term that is wrong. -/
def addTerms (draft : Layout.Draft) : List (List Char) → Guarded (Except LayoutError Layout.Draft)
  | [] => return .ok draft
  | term :: terms => do
    match ← read size term with
    | .error fault => return .error (.term (String.ofList term) fault)
    | .ok field =>
      match draft.add field with
      | .error e => return .error e
      | .ok draft => addTerms draft terms

def compile (source : String) : Guarded (Except LayoutError Layout) := do
  return (← addTerms size {} (Layout.terms source)).bind (·.finish source)

variable {size}

theorem width_eq_ok {span : Span} (countable : span.last + 1 < size) :
    width size span = .ok span.width := by
  have ordered := span.first_le_last
  rw [width, sub_eq_ok ordered, ok_bind, add_eq_ok (by omega), Span.width]

/-- What is left has the same significant bytes, and is short enough or has no other bytes. -/
theorem exists_strip (width : Nat) (bytes : Bytes) : ∃ rest, strip width bytes = .ok rest ∧
    rest.dropWhile (· == 0) = bytes.dropWhile (· == 0) ∧
      (rest.length ≤ width ∨ rest.dropWhile (· == 0) = rest) := by
  induction bytes with
  | nil =>
    rw [strip, if_neg (by simp)]
    exact ⟨[], rfl, rfl, .inr rfl⟩
  | cons first bytes ih =>
    rw [strip]
    split
    · rw [get_eq_ok (b := first) rfl, ok_bind]
      split
      · rename_i zero
        obtain ⟨rest, strips, same, short⟩ := ih
        refine ⟨rest, strips, ?_, short⟩
        rw [same, List.dropWhile_cons_of_pos (by simpa using zero)]
      · rename_i nonzero
        exact ⟨_, rfl, rfl, .inr (List.dropWhile_cons_of_neg (by simpa using nonzero))⟩
    · exact ⟨_, rfl, rfl, .inl (by omega)⟩

theorem readExpected_eq_ok {width most : Nat} (le : most ≤ width) (digits : List Char) :
    readExpected width most digits = .ok (Field.readExpected width most digits) := by
  unfold readExpected Field.readExpected
  cases Hex.read? digits with
  | none => rfl
  | some bytes =>
    obtain ⟨rest, strips, same, short⟩ := exists_strip width bytes
    dsimp only
    rw [strips, ok_bind, ← same]
    split
    · rename_i wide
      have long : ¬ (rest.dropWhile (· == 0)).length ≤ most := by
        rcases wide with long | significant
        · rw [short.resolve_left (by omega)]
          omega
        · omega
      rw [if_neg long]
      rfl
    · rename_i narrow
      rw [not_or, Nat.not_lt, Nat.not_lt] at narrow
      rw [if_pos narrow.2, sub_eq_ok narrow.1, ok_bind, ← Bytes.fit_of_length_le narrow.1,
        Bytes.fit_eq_ofNat, Bytes.fit_eq_ofNat, Bytes.value_dropWhile_zero]
      rfl

theorem readPattern_eq_ok (large : maxOffset + 1 < size) {most : Nat → Nat}
    (le : ∀ width, most width ≤ width) (text : List Char) :
    readPattern size most text = .ok (Field.readPattern most text) := by
  unfold readPattern Field.readPattern
  cases Cut.atFirst? '=' text with
  | none => rfl
  | some parts =>
    obtain ⟨before, after⟩ := parts
    dsimp only
    cases spans : Field.readSpan before with
    | error fault => rfl
    | ok span =>
      have last := (Field.readSpan_eq_ok_iff.mp spans).last_le
      dsimp only
      rw [width_eq_ok (by omega), ok_bind, readExpected_eq_ok (le _), ok_bind,
        ← bind_pure_eq_map]
      rfl

theorem read_eq_ok (large : maxOffset + 1 < size) (term : List Char) :
    read size term = .ok (Field.read term) := by
  unfold read
  split
  · rw [@readPattern_eq_ok size large id fun _ => Nat.le_refl _, ok_bind, ← bind_pure_eq_map]
    rfl
  · rw [readPattern_eq_ok large fun _ => Nat.min_le_right _ _, ok_bind, ← bind_pure_eq_map]
    rfl
  · rfl

theorem addTerms_eq_ok (large : maxOffset + 1 < size) (terms : List (List Char))
    (draft : Layout.Draft) :
    addTerms size draft terms = .ok (terms.foldlM Layout.Draft.addTerm draft) := by
  induction terms generalizing draft with
  | nil => rfl
  | cons term terms ih =>
    rw [addTerms, read_eq_ok large, ok_bind, List.foldlM_cons, Layout.Draft.addTerm]
    cases Field.read term with
    | error fault => rfl
    | ok field =>
      dsimp only
      cases draft.add field with
      | error e => rfl
      | ok draft => exact ih draft

theorem compile_eq_ok (large : maxOffset + 1 < size) (source : String) :
    compile size source = .ok (Layout.compile source) := by
  rw [compile, addTerms_eq_ok large]
  rfl

end Proximity.Guarded
