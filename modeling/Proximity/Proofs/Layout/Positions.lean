import Proximity.Layout.Compile
import Proximity.Proofs.Outcome

/-! Layouts that keep, in place of the fields of which there is one at most, their positions among
all fields. A position is noted when its field is added. It still leads to that field when all
others have been added, so that compiling with positions fails and succeeds as it does without. -/

namespace Proximity

/-- The fields read so far, with the positions of those of which there is one at most. -/
structure Positions.Draft where
  fields : List Field := []
  matcher : Option Nat := none
  power : Option Nat := none
  service : Option Nat := none

/-- The fields of a layout, with the positions of those of which there is one at most. -/
structure Positions where
  fields : List Field
  matcher : Nat
  power : Nat
  service : Option Nat

namespace Positions

/-- The draft with one more field, and with its position if it is one of a kind. -/
def Draft.add (draft : Draft) (field : Field) : Except LayoutError Draft :=
  let index := draft.fields.length
  let fields := draft.fields ++ [field]
  match field with
  | .matcher _ =>
    if draft.matcher.isSome then .error .matcherRepeated
    else .ok { draft with fields, matcher := some index }
  | .power _ =>
    if draft.power.isSome then .error .powerRepeated
    else .ok { draft with fields, power := some index }
  | .service _ =>
    if draft.service.isSome then .error .serviceRepeated
    else .ok { draft with fields, service := some index }
  | .identifier _ | .data _ => .ok { draft with fields }

def Draft.addTerm (draft : Draft) (term : List Char) : Except LayoutError Draft :=
  match Field.read term with
  | .error fault => .error (.term (String.ofList term) fault)
  | .ok field => draft.add field

def Draft.finish (draft : Draft) : Except LayoutError Positions :=
  match draft.matcher, draft.power with
  | none, _ => .error .matcherMissing
  | some _, none => .error .powerMissing
  | some matcher, some power =>
    if draft.fields.any (·.identifier?.isSome) then
      .ok { fields := draft.fields, matcher, power, service := draft.service }
    else .error .identifierMissing

/-- The fields that a text declares, and where those are of which there is one at most. -/
def compile (source : String) : Except LayoutError Positions := do
  let draft ← (Layout.terms source).foldlM Draft.addTerm {}
  draft.finish

/-- The position, if there is one, is that of the value's field. -/
inductive LeadsTo {α : Type} (fields : List Field) (make : α → Field) :
    Option Nat → Option α → Prop
  | nowhere : LeadsTo fields make none none
  | field {k : Nat} {a : α} : fields[k]? = some (make a) → LeadsTo fields make (some k) (some a)

/-- The positions lead to the fields that the layout sets apart. -/
structure Select (positions : Positions) (layout : Layout) : Prop where
  fields : positions.fields = layout.fields
  matcher : positions.fields[positions.matcher]? = some (.matcher layout.matcher)
  power : positions.fields[positions.power]? = some (.power layout.power)
  service : LeadsTo positions.fields .service positions.service layout.service

structure Draft.Select (draft : Draft) (other : Layout.Draft) : Prop where
  fields : draft.fields = other.fields
  matcher : LeadsTo draft.fields .matcher draft.matcher other.matcher
  power : LeadsTo draft.fields .power draft.power other.power
  service : LeadsTo draft.fields .service draft.service other.service

namespace LeadsTo

variable {α : Type} {fields : List Field} {make : α → Field} {position : Option Nat}
  {value : Option α}

theorem isSome_eq (leads : LeadsTo fields make position value) :
    position.isSome = value.isSome := by
  cases leads <;> rfl

/-- A position leads to the same field when one more is added behind all others. -/
theorem push (leads : LeadsTo fields make position value) (field : Field) :
    LeadsTo (fields ++ [field]) make position value := by
  cases leads with
  | nowhere => exact .nowhere
  | field holds =>
    obtain ⟨inside, -⟩ := List.getElem?_eq_some_iff.mp holds
    exact .field ((List.getElem?_append_left inside).trans holds)

/-- The number of fields so far is the position of the next one. -/
theorem pushed (fields : List Field) (make : α → Field) (a : α) :
    LeadsTo (fields ++ [make a]) make (some fields.length) (some a) :=
  .field List.getElem?_concat_length

end LeadsTo

namespace Draft.Select

variable {draft : Draft} {other : Layout.Draft} (select : draft.Select other)

include select

theorem add (field : Field) : Matched Draft.Select (draft.add field) (other.add field) := by
  obtain ⟨fields, matcher, power, service⟩ := select
  unfold Draft.add Layout.Draft.add
  cases field with
  | matcher pattern =>
    dsimp only
    rw [matcher.isSome_eq, ← fields]
    split
    · exact .error _
    · exact .ok ⟨rfl, .pushed _ _ _, power.push _, service.push _⟩
  | power span =>
    dsimp only
    rw [power.isSome_eq, ← fields]
    split
    · exact .error _
    · exact .ok ⟨rfl, matcher.push _, .pushed _ _ _, service.push _⟩
  | service pattern =>
    dsimp only
    rw [service.isSome_eq, ← fields]
    split
    · exact .error _
    · exact .ok ⟨rfl, matcher.push _, power.push _, .pushed _ _ _⟩
  | identifier place | data place =>
    exact .ok ⟨congrArg (· ++ _) fields, matcher.push _, power.push _, service.push _⟩

theorem addTerm (term : List Char) :
    Matched Draft.Select (draft.addTerm term) (other.addTerm term) := by
  unfold Draft.addTerm Layout.Draft.addTerm
  cases Field.read term with
  | error fault => exact .error _
  | ok field => exact select.add field

theorem finish (source : String) :
    Matched Positions.Select draft.finish (other.finish source) := by
  obtain ⟨fields, matcher, power, service⟩ := draft
  obtain ⟨_, pattern, span, found⟩ := other
  obtain ⟨same, leadsMatcher, leadsPower, leadsService⟩ := select
  cases same
  cases leadsMatcher with
  | nowhere => exact .error _
  | field isMatcher =>
    cases leadsPower with
    | nowhere => exact .error _
    | field isPower =>
      unfold Draft.finish Layout.Draft.finish
      dsimp only
      split
      · exact .ok ⟨rfl, isMatcher, isPower, leadsService⟩
      · exact .error _

end Draft.Select

/-- A text compiles with positions as it does without, and they lead to the fields that are set
apart. -/
theorem compile_matched (source : String) :
    Matched Select (compile source) (Layout.compile source) :=
  have start : Draft.Select {} {} := ⟨rfl, .nowhere, .nowhere, .nowhere⟩
  (Matched.foldlM (fun _ _ term select => select.addTerm term) start _).bind
    fun _ _ select => select.finish source

end Positions

end Proximity
