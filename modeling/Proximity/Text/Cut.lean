/-! Cutting a text at a character. -/

namespace Proximity.Cut

/-- The text before the first `mark` and the text after it. -/
def atFirst? (mark : Char) : List Char → Option (List Char × List Char)
  | [] => none
  | c :: rest =>
    if c = mark then some ([], rest)
    else (atFirst? mark rest).map fun (before, after) => (c :: before, after)

/-- The text before a `mark` at its end. -/
def beforeLast? (mark : Char) (text : List Char) : Option (List Char) :=
  if text.getLast? = some mark then some text.dropLast else none

/-- The cut is made where the mark occurs first, and nothing but the mark is lost. -/
theorem atFirst?_eq_some_iff {mark : Char} {text before after : List Char} :
    atFirst? mark text = some (before, after) ↔
      mark ∉ before ∧ text = before ++ mark :: after := by
  induction text generalizing before with
  | nil => simp [atFirst?]
  | cons c rest ih =>
    by_cases h : c = mark
    · subst h
      cases before with
      | nil => simp [atFirst?]
      | cons d before => simp +contextual [atFirst?, eq_comm]
    · cases before with
      | nil => simp [atFirst?, h]
      | cons d before =>
        have := @ih before
        simp only [atFirst?, if_neg h, Option.map_eq_some_iff, Prod.mk.injEq, List.cons.injEq,
          Prod.exists, List.mem_cons, not_or, List.cons_append]
        grind

theorem atFirst?_eq_none_iff {mark : Char} {text : List Char} :
    atFirst? mark text = none ↔ mark ∉ text := by
  induction text with
  | nil => simp [atFirst?]
  | cons c rest ih =>
    by_cases h : c = mark
    · simp [atFirst?, h]
    · simp [atFirst?, h, ih, Ne.symm h]

theorem beforeLast?_eq_some_iff {mark : Char} {text before : List Char} :
    beforeLast? mark text = some before ↔ text = before ++ [mark] := by
  unfold beforeLast?
  constructor
  · intro h
    split at h
    · rename_i ends
      obtain ⟨before, rfl⟩ := List.getLast?_eq_some_iff.mp ends
      cases h
      rw [List.dropLast_concat]
    · cases h
  · rintro rfl
    simp

theorem beforeLast?_eq_none_iff {mark : Char} {text : List Char} :
    beforeLast? mark text = none ↔ text.getLast? ≠ some mark := by
  simp [beforeLast?]

end Proximity.Cut
