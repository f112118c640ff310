import Proximity.Bytes
import Proximity.Text.Utf8

/-! Reading JSON text that someone else wrote. Strings are taken as they stand, escapes and all, and
values that are of no use are skipped with little regard to what they hold. A reader returns what it
read and what is left of the input, which is always shorter. -/

namespace Proximity.Json

/-- What is left of the input after something was read from its start. -/
abbrev Rest (input : Bytes) := { rest : Bytes // rest.length < input.length }

/-- What is left of a shorter input is left of a longer one. -/
def Rest.within {shorter input : Bytes} (h : shorter.length ≤ input.length) (rest : Rest shorter) :
    Rest input :=
  ⟨rest.1, Nat.lt_of_lt_of_le rest.2 h⟩

def byte (c : Char) : UInt8 := UInt8.ofNat c.toNat

/-- A blank between the parts of a text. -/
def isBlank (b : UInt8) : Bool := b = byte ' ' || b = byte '\n' || b = byte '\t' || b = byte '\r'

def isDigit (b : UInt8) : Bool := byte '0' ≤ b && b ≤ byte '9'

/-- A byte that ends a value that is no string, object or list. -/
def isDelimiter (b : UInt8) : Bool := b = byte ',' || b = byte '\x7d' || b = byte ']'

theorem length_dropWhile_le (p : UInt8 → Bool) (input : Bytes) :
    (input.dropWhile p).length ≤ input.length :=
  (List.dropWhile_sublist p).length_le

/-- The first byte behind blanks, and what follows it. -/
def next? (input : Bytes) : Option (UInt8 × Rest input) :=
  match h : input.dropWhile isBlank with
  | [] => none
  | b :: rest =>
    some (b, ⟨rest, by
      have := length_dropWhile_le isBlank input
      rw [h, List.length_cons] at this
      omega⟩)

/-- The bytes up to a quote, and what follows the quote. A backslash makes the byte behind it one of
the string. -/
def stringBody? : (input : Bytes) → Option (Bytes × Rest input)
  | [] => none
  | b :: input =>
    if b = byte '"' then some ([], ⟨input, by simp⟩)
    else if b = byte '\\' then
      match input with
      | [] => none
      | c :: input =>
        (stringBody? input).map fun (body, rest) =>
          (b :: c :: body, rest.within (by simp only [List.length_cons]; omega))
    else
      (stringBody? input).map fun (body, rest) => (b :: body, rest.within (by simp))

/-- The text of a string whose opening quote was read. -/
def stringText? (input : Bytes) : Option (String × Rest input) := do
  let (body, rest) ← stringBody? input
  return (← Utf8.read? body, rest)

def string? (input : Bytes) : Option (String × Rest input) := do
  let (b, rest) ← next? input
  if b = byte '"' then
    let (text, rest') ← stringText? rest.1
    return (text, rest'.within (Nat.le_of_lt rest.2))
  else none

/-- What follows in an object. -/
inductive Member (input : Bytes)
  /-- The end of the object. -/
  | stop (rest : Rest input)
  /-- The name of a member and the colon behind it. -/
  | name (text : String) (rest : Rest input)

/-- The name of a member whose opening quote was read, and the colon. -/
def memberName? (input : Bytes) : Option (Member input) := do
  let (text, rest) ← stringText? input
  let (b, rest') ← next? rest.1
  if b = byte ':' then return .name text (rest'.within (Nat.le_of_lt rest.2)) else none

/-- What is left of a shorter input is left of a longer one. -/
def Member.within {shorter input : Bytes} (h : shorter.length ≤ input.length) :
    Member shorter → Member input
  | .stop rest => .stop (rest.within h)
  | .name text rest => .name text (rest.within h)

/-- What follows in an object. There is a comma before every member but the first. -/
def member? (first : Bool) (input : Bytes) : Option (Member input) := do
  let (b, rest) ← next? input
  if b = byte '\x7d' then return .stop rest
  else if first then
    if b = byte '"' then
      return (← memberName? rest.1).within (Nat.le_of_lt rest.2)
    else none
  else if b = byte ',' then
    let (b, rest') ← next? rest.1
    if b = byte '"' then
      return (← memberName? rest'.1).within (Nat.le_of_lt (Nat.lt_trans rest'.2 rest.2))
    else none
  else none

/-- What follows a value that is no string, object or list: all up to a delimiter is taken. -/
def skipScalar? (input : Bytes) : Option Bytes :=
  match input.dropWhile (!isDelimiter ·) with
  | [] => none
  | rest => some rest

theorem length_of_skipScalar? {input rest : Bytes} (h : skipScalar? input = some rest) :
    rest.length ≤ input.length := by
  have := length_dropWhile_le (!isDelimiter ·) input
  unfold skipScalar? at h
  split at h
  · exact absurd h (by simp)
  · cases h
    exact this

mutual

/-- What follows a value of any kind. -/
def skipValue? (input : Bytes) : Option (Rest input) := do
  let (b, rest) ← next? input
  have := rest.2
  if b = byte '"' then
    let (_, rest') ← stringText? rest.1
    return rest'.within (Nat.le_of_lt rest.2)
  else if b = byte '\x7b' then return (← skipMembers? true rest.1).within (Nat.le_of_lt rest.2)
  else if b = byte '[' then return (← skipItems? true rest.1).within (Nat.le_of_lt rest.2)
  else if isDelimiter b then none
  else match h : skipScalar? rest.1 with
    | none => none
    | some rest' => some ⟨rest', Nat.lt_of_le_of_lt (length_of_skipScalar? h) rest.2⟩
termination_by (input.length, 0)

/-- What follows the members of an object. -/
def skipMembers? (first : Bool) (input : Bytes) : Option (Rest input) := do
  match ← member? first input with
  | .stop rest => return rest
  | .name _ rest =>
    have := rest.2
    let rest' ← skipValue? rest.1
    have := rest'.2
    return (← skipMembers? false rest'.1).within (by omega)
termination_by (input.length, 1)

/-- What follows the items of a list. There is a comma before every item, but one item may lack it;
`spare` says that none has lacked it so far. -/
def skipItems? (spare : Bool) (input : Bytes) : Option (Rest input) := do
  let (b, rest) ← next? input
  have := rest.2
  if b = byte ']' then return rest
  else if b = byte ',' then
    let rest' ← skipValue? rest.1
    have := rest'.2
    return (← skipItems? spare rest'.1).within (by omega)
  else if spare then
    let rest' ← skipValue? input
    have := rest'.2
    return (← skipItems? false rest'.1).within (by omega)
  else none
termination_by (input.length, 1)

end

/-- A number without sign. A leading zero is the whole number. -/
def natural? (input : Bytes) : Option (Nat × Rest input) :=
  match input with
  | [] => none
  | b :: rest =>
    if b = byte '0' then some (0, ⟨rest, by simp⟩)
    else if isDigit b then
      let value := (b :: rest.takeWhile isDigit).foldl
        (fun n d => 10 * n + (d.toNat - (byte '0').toNat)) 0
      some (value, ⟨rest.dropWhile isDigit, by
        have := length_dropWhile_le isDigit rest
        simp only [List.length_cons]
        omega⟩)
    else none

/-- A number that may have a minus sign. -/
def integer? (input : Bytes) : Option (Int × Rest input) :=
  match input with
  | [] => none
  | b :: rest =>
    if b = byte '-' then
      (natural? rest).map fun (n, rest) => (-n, rest.within (by simp))
    else (natural? (b :: rest)).map fun (n, rest) => (n, rest)

/-- A value that `read?` reads, or `null`. -/
def orNull? {α : Type} (read? : (input : Bytes) → Option (α × Rest input)) (input : Bytes) :
    Option (Option α × Rest input) :=
  match h : input.dropWhile isBlank with
  | [] => none
  | b :: rest =>
    have le : (b :: rest).length ≤ input.length := h ▸ length_dropWhile_le isBlank input
    if b = byte 'n' then
      match rest with
      | u :: l :: m :: rest =>
        if u = byte 'u' ∧ l = byte 'l' ∧ m = byte 'l' then
          some (none, ⟨rest, by simp only [List.length_cons] at le; omega⟩)
        else none
      | _ => none
    else (read? (b :: rest)).map fun (a, rest) => (some a, rest.within le)

end Proximity.Json
