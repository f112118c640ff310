import Proximity.Text.Decimal
import Mathlib.Data.List.TakeWhile

/-! Writers of text whose values can be told off the front of a longer text. -/

namespace Proximity.Text

variable {α β : Type}

/-- A value that is written in front of a text is told from every other value, and so is where its
own text ends, as long as what follows is one of the texts that may follow. -/
def Delimited (write : α → List Char) (MayFollow : List Char → Prop) : Prop :=
  ∀ ⦃a b : α⦄ ⦃rest rest' : List Char⦄, MayFollow rest → MayFollow rest' →
    write a ++ rest = write b ++ rest' → a = b ∧ rest = rest'

variable {write : α → List Char} {MayFollow MayFollow' : List Char → Prop}

namespace Delimited

theorem mono (delimited : Delimited write MayFollow)
    (less : ∀ rest, MayFollow' rest → MayFollow rest) : Delimited write MayFollow' :=
  fun _ _ _ _ allowed allowed' => delimited (less _ allowed) (less _ allowed')

/-- Text in front of a value does not matter. -/
theorem behind (delimited : Delimited write MayFollow) (front : List Char) :
    Delimited (fun a => front ++ write a) MayFollow := by
  intro a b rest rest' allowed allowed' same
  rw [List.append_assoc, List.append_assoc, List.append_cancel_left_eq] at same
  exact delimited allowed allowed' same

/-- Two values one after the other. -/
theorem pair {write' : β → List Char} (first : Delimited write MayFollow)
    (second : Delimited write' MayFollow') (joins : ∀ b rest, MayFollow (write' b ++ rest)) :
    Delimited (fun p : α × β => write p.1 ++ write' p.2) MayFollow' := by
  rintro ⟨a, b⟩ ⟨a', b'⟩ rest rest' allowed allowed' same
  simp only [List.append_assoc] at same
  obtain ⟨rfl, later⟩ := first (joins b rest) (joins b' rest') same
  obtain ⟨rfl, behind⟩ := second allowed allowed' later
  exact ⟨rfl, behind⟩

/-- Any number of values one after the other, up to a mark that none of them starts with. -/
theorem flatMap (mark : Char) (delimited : Delimited write MayFollow)
    (joins : ∀ a rest, MayFollow (write a ++ rest)) (ends : ∀ rest, MayFollow (mark :: rest))
    (unmarked : ∀ a rest, (write a ++ rest).head? ≠ some mark) :
    Delimited (fun l : List α => l.flatMap write) fun rest => rest.head? = some mark := by
  have goesOn (l : List α) {rest : List Char} (marked : rest.head? = some mark) :
      MayFollow (l.flatMap write ++ rest) := by
    cases l with
    | nil =>
      obtain ⟨rest, rfl⟩ := List.head?_eq_some_iff.mp marked
      exact ends rest
    | cons a l =>
      rw [List.flatMap_cons, List.append_assoc]
      exact joins a _
  intro l l' rest rest' marked marked' same
  change l.flatMap write ++ rest = l'.flatMap write ++ rest' at same
  induction l generalizing l' with
  | nil =>
    cases l' with
    | nil => exact ⟨rfl, same⟩
    | cons b l' =>
      rw [List.flatMap_nil, List.nil_append, List.flatMap_cons, List.append_assoc] at same
      exact absurd (same ▸ marked) (unmarked b _)
  | cons a l ih =>
    cases l' with
    | nil =>
      rw [List.flatMap_nil, List.nil_append, List.flatMap_cons, List.append_assoc] at same
      exact absurd (same ▸ marked') (unmarked a _)
    | cons b l' =>
      simp only [List.flatMap_cons, List.append_assoc] at same
      obtain ⟨rfl, later⟩ := delimited (goesOn l marked) (goesOn l' marked') same
      obtain ⟨rfl, behind⟩ := ih later
      exact ⟨rfl, behind⟩

theorem injective (delimited : Delimited write MayFollow) (ends : MayFollow []) :
    Function.Injective write :=
  fun _ _ same => (delimited ends ends (congrArg (· ++ []) same)).1

end Delimited

/-- The text does not go on with a decimal digit. -/
def NoDigit (rest : List Char) : Prop := ∀ c ∈ rest.head?, ¬ c.isDigit

theorem takeWhile_digits {digits rest : List Char} (all : ∀ c ∈ digits, c.isDigit)
    (stops : NoDigit rest) : (digits ++ rest).takeWhile Char.isDigit = digits := by
  rw [List.takeWhile_append_of_pos all]
  cases rest with
  | nil => simp
  | cons c rest => simp [stops c rfl]

theorem delimited_decimal : Delimited Decimal.write NoDigit := by
  intro m n rest rest' stops stops' same
  have digits : Decimal.write m = Decimal.write n := by
    rw [← takeWhile_digits (fun _ => Decimal.isDigit_of_mem_write) stops, same,
      takeWhile_digits (fun _ => Decimal.isDigit_of_mem_write) stops']
  have number := Decimal.read?_write m
  rw [digits, Decimal.read?_write n] at number
  rw [digits, List.append_cancel_left_eq] at same
  exact ⟨(Option.some.inj number).symm, same⟩

theorem head?_write_append_ne_minus (n : Nat) (rest : List Char) :
    (Decimal.write n ++ rest).head? ≠ some '-' := by
  obtain ⟨c, digits, written, digit⟩ := Decimal.exists_write_eq_cons n
  rw [written, List.cons_append, List.head?_cons]
  rintro ⟨⟩
  exact absurd digit (by decide)

theorem delimited_integer : Delimited Decimal.writeInt NoDigit := by
  rintro (m | m) (n | n) rest rest' stops stops' same
  · obtain ⟨rfl, behind⟩ := delimited_decimal stops stops' same
    exact ⟨rfl, behind⟩
  · exact absurd (congrArg List.head? same) (head?_write_append_ne_minus m rest)
  · exact absurd (congrArg List.head? same).symm (head?_write_append_ne_minus n rest')
  · obtain ⟨number, behind⟩ := delimited_decimal stops stops' (List.cons.inj same).2
    cases number
    exact ⟨rfl, behind⟩

end Proximity.Text
