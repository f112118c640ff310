import Proximity.Layout.Term
import Proximity.Text.Blank

/-! Reading a layout from its text, a list of terms set apart by commas. -/

namespace Proximity

/-- The fields read so far, with those of which there is one at most set apart. -/
structure Layout.Draft where
  fields : List Field := []
  matcher : Option Pattern := none
  power : Option Span := none
  service : Option Pattern := none

namespace Layout

/-- The draft with one more field. -/
def Draft.add (draft : Draft) (field : Field) : Except LayoutError Draft :=
  let fields := draft.fields ++ [field]
  match field with
  | .matcher pattern =>
    if draft.matcher.isSome then .error .matcherRepeated
    else .ok { draft with fields, matcher := some pattern }
  | .power span =>
    if draft.power.isSome then .error .powerRepeated
    else .ok { draft with fields, power := some span }
  | .service pattern =>
    if draft.service.isSome then .error .serviceRepeated
    else .ok { draft with fields, service := some pattern }
  | .identifier _ | .data _ => .ok { draft with fields }

/-- The draft with the field that one more term declares. -/
def Draft.addTerm (draft : Draft) (term : List Char) : Except LayoutError Draft :=
  match Field.read term with
  | .error fault => .error (.term (String.ofList term) fault)
  | .ok field => draft.add field

/-- The layout of a draft that lacks nothing. -/
def Draft.finish (draft : Draft) (source : String) : Except LayoutError Layout :=
  match draft.matcher, draft.power with
  | none, _ => .error .matcherMissing
  | some _, none => .error .powerMissing
  | some matcher, some power =>
    if draft.fields.any (·.identifier?.isSome) then
      .ok { source, fields := draft.fields, matcher, power, service := draft.service }
    else .error .identifierMissing

/-- The terms of a text. Blanks around a term do not count. -/
def terms (source : String) : List (List Char) := (source.toList.splitOn ',').map Blank.trim

/-- The layout that a text declares. The first term that is wrong decides the error. -/
def compile (source : String) : Except LayoutError Layout := do
  let draft ← (terms source).foldlM Draft.addTerm {}
  draft.finish source

end Layout

end Proximity
