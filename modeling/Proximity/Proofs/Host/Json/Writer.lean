import Proximity.Host.Json.Writer
import Proximity.Proofs.Text.Delimited

/-! What the text of an object tells. It tells the members and their order, even where a text inside
imitates the punctuation around it, and it has no control characters. -/

namespace Proximity.Json

open Text

/-- The characters that are not written as they are. -/
def Special (c : Char) : Prop := c.toNat < 0x20 ∨ c = '"' ∨ c = '\\'

instance (c : Char) : Decidable (Special c) := inferInstanceAs (Decidable (_ ∨ _))

theorem escape_of_not_special {c : Char} (plain : ¬ Special c) : escape c = [c] := by
  obtain ⟨printable, quote, backslash⟩ : ¬ c.toNat < 0x20 ∧ c ≠ '"' ∧ c ≠ '\\' := by
    simpa [Special] using plain
  have ne (control : Char) (small : control.toNat < 0x20) : c ≠ control := by
    rintro rfl
    exact printable small
  rw [escape, if_neg quote, if_neg backslash, if_neg (ne '\x08' (by decide)),
    if_neg (ne '\t' (by decide)), if_neg (ne '\n' (by decide)), if_neg (ne '\x0c' (by decide)),
    if_neg (ne '\r' (by decide)), if_neg printable]

/-- The special characters, as far as they can be counted off. -/
def specials : List Char := '"' :: '\\' :: (List.range 0x20).map Char.ofNat

theorem Special.of_all {c : Char} (special : Special c) {test : Char → Bool}
    (table : specials.all test) : test c := by
  refine List.all_eq_true.mp table c ?_
  rcases special with control | rfl | rfl
  · have counted : Char.ofNat c.toNat ∈ (List.range 0x20).map Char.ofNat :=
      List.mem_map_of_mem (List.mem_range.mpr control)
    rw [Char.ofNat_toNat] at counted
    exact List.mem_cons_of_mem _ (List.mem_cons_of_mem _ counted)
  · exact List.mem_cons_self
  · exact List.mem_cons_of_mem _ List.mem_cons_self

theorem Special.head?_escape {c : Char} (special : Special c) : (escape c).head? = some '\\' := by
  have table : specials.all fun c => (escape c).head? = some '\\' := by decide +kernel
  exact of_decide_eq_true (special.of_all table)

/-- No special character is written as the start of what another is written as. -/
theorem Special.eq_of_isPrefix {c d : Char} (special : Special c) (special' : Special d)
    (isPrefix : escape c <+: escape d) : c = d := by
  have table : specials.all fun c => specials.all fun d =>
      (escape c).isPrefixOf (escape d) → c = d := by decide +kernel
  have apart := of_decide_eq_true (special'.of_all (special.of_all table))
  exact apart (List.isPrefixOf_iff_prefix.mpr isPrefix)

theorem escape_append_ne {c d : Char} {rest rest' : List Char} (special : Special c)
    (plain : ¬ Special d) : escape c ++ rest ≠ escape d ++ rest' := by
  intro same
  have heads := congrArg List.head? same
  rw [List.head?_append, special.head?_escape, escape_of_not_special plain] at heads
  cases heads
  exact plain (by decide)

/-- A character inside a string is told off the front of any text. -/
theorem delimited_escape : Delimited escape fun _ => True := by
  intro c d rest rest' _ _ same
  by_cases special : Special c <;> by_cases special' : Special d
  · have equal : c = d := by
      rcases List.prefix_or_prefix_of_prefix (List.prefix_append (escape c) rest)
        (same ▸ List.prefix_append (escape d) rest') with isPrefix | isPrefix
      · exact special.eq_of_isPrefix special' isPrefix
      · exact (special'.eq_of_isPrefix special isPrefix).symm
    subst equal
    exact ⟨rfl, List.append_cancel_left same⟩
  · exact absurd same (escape_append_ne special special')
  · exact absurd same.symm (escape_append_ne special' special)
  · rw [escape_of_not_special special, escape_of_not_special special'] at same
    exact List.cons.inj same

theorem head?_escape_append_ne_quote (c : Char) (rest : List Char) :
    (escape c ++ rest).head? ≠ some '"' := by
  rw [List.head?_append]
  by_cases special : Special c
  · rw [special.head?_escape]
    rintro ⟨⟩
  · rw [escape_of_not_special special]
    rintro ⟨⟩
    exact special (by decide)

/-- A string ends at the first quote that is not escaped, whatever text is inside. -/
theorem delimited_quote : Delimited quote fun _ => True := by
  have body : Delimited (fun text : List Char => text.flatMap escape) _ :=
    delimited_escape.flatMap '"' (fun _ _ => trivial) (fun _ => trivial)
      head?_escape_append_ne_quote
  intro s s' rest rest' _ _ same
  simp only [quote, List.cons_append, List.append_assoc, List.cons.injEq, true_and] at same
  obtain ⟨text, behind⟩ := body rfl rfl same
  exact ⟨String.toList_inj.mp text, (List.cons.inj behind).2⟩

theorem intercalate_cons (x : List Char) (items : List (List Char)) :
    [','].intercalate (x :: items) = x ++ items.flatMap (',' :: ·) := by
  induction items generalizing x with
  | nil => simp [List.intercalate]
  | cons y items ih =>
    rw [List.flatMap_cons, List.cons_append, ← ih, List.intercalate, List.intersperse_cons_cons]
    simp [List.intercalate]

/-- What follows an item between brackets. -/
def FollowsItem (right : Char) (rest : List Char) : Prop :=
  rest.head? = some ',' ∨ rest.head? = some right

theorem bracket_cons_append {α : Type} (write : α → List Char) (left right : Char) (a : α)
    (l : List α) (rest : List Char) :
    bracket left right ((a :: l).map write) ++ rest =
      left :: (write a ++ (l.flatMap (fun b => ',' :: write b) ++ right :: rest)) := by
  rw [bracket, List.map_cons, intercalate_cons, List.flatMap_map]
  simp

/-- Items between brackets are told apart, and so are their number and the end of the last, if no
item starts with the closing bracket. -/
theorem delimited_bracket {α : Type} {write : α → List Char} {left right : Char}
    (delimited : Delimited write (FollowsItem right)) (noComma : right ≠ ',')
    (unmarked : ∀ a rest, (write a ++ rest).head? ≠ some right) :
    Delimited (fun l : List α => bracket left right (l.map write)) fun _ => True := by
  -- All items but the first stand behind a comma, which none of them can be mistaken for.
  have later : Delimited (fun l : List α => l.flatMap fun a => ',' :: write a) _ :=
    (delimited.behind [',']).flatMap right (fun _ _ => Or.inl rfl)
      (fun _ => Or.inr rfl) fun _ _ same => noComma (Option.some.inj same).symm
  have joins (l : List α) (rest : List Char) :
      FollowsItem right (l.flatMap (fun a => ',' :: write a) ++ right :: rest) := by
    cases l with
    | nil => exact Or.inr rfl
    | cons a l => exact Or.inl rfl
  intro l l' rest rest' _ _ same
  simp only at same
  cases l with
  | nil =>
    cases l' with
    | nil => exact ⟨rfl, List.append_cancel_left same⟩
    | cons b l' =>
      rw [bracket_cons_append] at same
      exact absurd (congrArg List.head? (List.cons.inj same).2).symm (unmarked b _)
  | cons a l =>
    cases l' with
    | nil =>
      rw [bracket_cons_append] at same
      exact absurd (congrArg List.head? (List.cons.inj same).2) (unmarked a _)
    | cons b l' =>
      rw [bracket_cons_append, bracket_cons_append] at same
      obtain ⟨rfl, others⟩ := delimited (joins l rest) (joins l' rest') (List.cons.inj same).2
      obtain ⟨rfl, behind⟩ := later rfl rfl others
      exact ⟨rfl, (List.cons.inj behind).2⟩

/-- The index of the kind of value whose text starts with the character. -/
def kindOf (c : Char) : Nat :=
  if c = 't' ∨ c = 'f' then 0 else if c = '"' then 2 else if c = '[' then 3 else 1

theorem kindOf_digit {c : Char} (digit : c.isDigit) : kindOf c = 1 := by
  have ne (other : Char) (noDigit : ¬ other.isDigit) : c ≠ other := by
    rintro rfl
    exact noDigit digit
  rw [kindOf, if_neg (not_or.mpr ⟨ne 't' (by decide), ne 'f' (by decide)⟩),
    if_neg (ne '"' (by decide)), if_neg (ne '[' (by decide))]

theorem Value.exists_head (value : Value) :
    ∃ c text, value.write = c :: text ∧ kindOf c = value.ctorIdx := by
  cases value with
  | flag b =>
    cases b with
    | false => exact ⟨'f', ['a', 'l', 's', 'e'], rfl, rfl⟩
    | true => exact ⟨'t', ['r', 'u', 'e'], rfl, rfl⟩
  | integer n =>
    cases n with
    | ofNat n =>
      obtain ⟨c, digits, written, digit⟩ := Decimal.exists_write_eq_cons n
      exact ⟨c, digits, written, kindOf_digit digit⟩
    | negSucc n => exact ⟨_, _, rfl, rfl⟩
  | text s => exact ⟨_, _, rfl, rfl⟩
  | texts l => exact ⟨_, _, rfl, rfl⟩

theorem delimited_flag : Delimited (fun b => (Value.flag b).write) fun _ => True := by
  rintro (_ | _) (_ | _) rest rest' _ _ same
  · exact ⟨rfl, List.append_cancel_left same⟩
  · cases same
  · cases same
  · exact ⟨rfl, List.append_cancel_left same⟩

/-- The first character tells the kind of a value, and then the text of that kind its end. -/
theorem delimited_value : Delimited Value.write NoDigit := by
  intro value value' rest rest' stops stops' same
  have kinds : value.ctorIdx = value'.ctorIdx := by
    obtain ⟨c, text, written, kind⟩ := value.exists_head
    obtain ⟨c', text', written', kind'⟩ := value'.exists_head
    rw [written, written'] at same
    rw [← kind, ← kind', (List.cons.inj same).1]
  match value, value', kinds with
  | .flag b, .flag b', _ =>
    obtain ⟨rfl, behind⟩ := delimited_flag trivial trivial same
    exact ⟨rfl, behind⟩
  | .integer n, .integer n', _ =>
    obtain ⟨rfl, behind⟩ := delimited_integer stops stops' same
    exact ⟨rfl, behind⟩
  | .text s, .text s', _ =>
    obtain ⟨rfl, behind⟩ := delimited_quote trivial trivial same
    exact ⟨rfl, behind⟩
  | .texts l, .texts l', _ =>
    have list : Delimited (fun l : List String => bracket '[' ']' (l.map quote)) _ :=
      delimited_bracket (delimited_quote.mono fun _ _ => trivial) (by decide) fun _ _ marked => by
        cases marked
    obtain ⟨rfl, behind⟩ := list trivial trivial same
    exact ⟨rfl, behind⟩

theorem delimited_member :
    Delimited (fun member : String × Value => writeMember member.1 member.2) NoDigit :=
  delimited_quote.pair (delimited_value.behind [':']) fun _ _ => trivial

theorem FollowsItem.noDigit {rest : List Char} (follows : FollowsItem '\x7d' rest) :
    NoDigit rest := by
  intro c first
  rcases follows with comma | brace
  · cases first.symm.trans comma
    decide
  · cases first.symm.trans brace
    decide

/-- Members are told by the text of their object. -/
theorem write_injective : Function.Injective write :=
  (delimited_bracket (delimited_member.mono fun _ => FollowsItem.noDigit) (by decide)
    fun _ _ marked => by cases marked).injective trivial

/-- No character of the text is a control character. -/
def Printable (text : List Char) : Prop := ∀ c ∈ text, 0x20 ≤ c.toNat

@[simp] theorem printable_append {a b : List Char} :
    Printable (a ++ b) ↔ Printable a ∧ Printable b := List.forall_mem_append

@[simp] theorem printable_cons {c : Char} {text : List Char} :
    Printable (c :: text) ↔ 0x20 ≤ c.toNat ∧ Printable text := List.forall_mem_cons

@[simp] theorem printable_nil : Printable [] := List.forall_mem_nil _

theorem printable_of_all {text : List Char} (table : text.all fun c => 0x20 ≤ c.toNat) :
    Printable text := fun c member => of_decide_eq_true (List.all_eq_true.mp table c member)

theorem printable_flatMap {α : Type} {write : α → List Char} {l : List α}
    (each : ∀ a ∈ l, Printable (write a)) : Printable (l.flatMap write) := by
  intro c member
  obtain ⟨a, inside, here⟩ := List.mem_flatMap.mp member
  exact each a inside c here

theorem printable_escape (c : Char) : Printable (escape c) := by
  by_cases special : Special c
  · have table : specials.all fun c => (escape c).all fun d => 0x20 ≤ d.toNat := by decide +kernel
    exact printable_of_all (special.of_all table)
  · rw [escape_of_not_special special]
    simp only [Special, not_or] at special
    simpa using special.1

theorem printable_quote (s : String) : Printable (quote s) := by
  simp only [quote, printable_cons, printable_append, printable_nil]
  exact ⟨⟨by decide, printable_flatMap fun c _ => printable_escape c⟩, by decide, trivial⟩

theorem printable_digits (n : Nat) : Printable (Decimal.write n) := by
  intro c member
  have digit := Decimal.isDigit_of_mem_write member
  simp only [Char.isDigit, Bool.and_eq_true, decide_eq_true_eq] at digit
  have : (48 : UInt32).toNat ≤ c.val.toNat := UInt32.le_iff_toNat_le.mp digit.1
  have code : c.val.toNat = c.toNat := rfl
  have zero : (48 : UInt32).toNat = 48 := rfl
  omega

theorem printable_bracket {left right : Char} {items : List (List Char)}
    (first : 0x20 ≤ left.toNat) (last : 0x20 ≤ right.toNat)
    (each : ∀ item ∈ items, Printable item) : Printable (bracket left right items) := by
  have inside : Printable ([','].intercalate items) := by
    cases items with
    | nil => exact printable_nil
    | cons item items =>
      rw [intercalate_cons, printable_append]
      refine ⟨each item List.mem_cons_self, printable_flatMap fun other member => ?_⟩
      exact printable_cons.mpr ⟨by decide, each other (List.mem_cons_of_mem _ member)⟩
  rw [bracket, printable_append, printable_cons]
  exact ⟨⟨first, inside⟩, printable_cons.mpr ⟨last, printable_nil⟩⟩

theorem printable_value (value : Value) : Printable value.write := by
  cases value with
  | flag b =>
    cases b with
    | false => exact printable_of_all (by decide : ['f', 'a', 'l', 's', 'e'].all _)
    | true => exact printable_of_all (by decide : ['t', 'r', 'u', 'e'].all _)
  | integer n =>
    cases n with
    | ofNat n => exact printable_digits n
    | negSucc n => exact printable_cons.mpr ⟨by decide, printable_digits (n + 1)⟩
  | text s => exact printable_quote s
  | texts l =>
    refine printable_bracket (by decide) (by decide) fun item member => ?_
    obtain ⟨s, -, rfl⟩ := List.mem_map.mp member
    exact printable_quote s

/-- The text of an object has no control characters, whatever texts are in it. -/
theorem printable_write (members : List (String × Value)) : Printable (write members) := by
  refine printable_bracket (by decide) (by decide) fun item member => ?_
  obtain ⟨⟨name, value⟩, -, rfl⟩ := List.mem_map.mp member
  exact printable_append.mpr ⟨printable_quote name,
    printable_cons.mpr ⟨by decide, printable_value value⟩⟩

end Proximity.Json
