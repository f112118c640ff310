import Proximity.Host.Command
import Proximity.Host.Json.Reader

/-! Commands as the host writes them: a JSON object that names the command in its member `cmd`, and
in other members what the command needs. Members that no command needs may hold anything. -/

namespace Proximity

namespace Command

open Json

def int16? (input : Bytes) : Option (Int16 × Rest input) := do
  let (n, rest) ← integer? input
  if Int16.minValue.toInt ≤ n ∧ n ≤ Int16.maxValue.toInt then return (Int16.ofInt n, rest) else none

def uint32? (input : Bytes) : Option (UInt32 × Rest input) := do
  let (n, rest) ← natural? input
  if n < UInt32.size then return (UInt32.ofNat n, rest) else none

/-- The most bytes of a command's name. -/
def maxNameSize : Nat := 16

def name? (input : Bytes) : Option (String × Rest input) := do
  let (text, rest) ← string? input
  if Utf8.size text.toList ≤ maxNameSize then return (text, rest) else none

/-- The members that a command may need, so far as they were read. -/
structure Draft where
  name : Option String := none
  minRssi : Option (Option Int16) := none
  windowMs : Option (Option UInt32) := none

/-- The draft with a value read for the member of the given name. A member that a command may need
must not be repeated. -/
def Draft.read? (draft : Draft) (member : String) (input : Bytes) : Option (Draft × Rest input) :=
  if member = "cmd" then
    if draft.name.isSome then none
    else (name? input).map fun (name, rest) => ({ draft with name := some name }, rest)
  else if member = "min_rssi" then
    if draft.minRssi.isSome then none
    else (orNull? int16? input).map fun (n, rest) => ({ draft with minRssi := some n }, rest)
  else if member = "window_ms" then
    if draft.windowMs.isSome then none
    else (orNull? uint32? input).map fun (n, rest) => ({ draft with windowMs := some n }, rest)
  else (skipValue? input).map fun rest => (draft, rest)

/-- The draft with the members that follow in an object, and what follows the object. -/
def members? (draft : Draft) (first : Bool) (input : Bytes) : Option (Draft × Bytes) := do
  match ← member? first input with
  | .stop rest => return (draft, rest.1)
  | .name text rest =>
    have := rest.2
    let (draft, rest') ← draft.read? text rest.1
    have := rest'.2
    members? draft false rest'.1
termination_by input.length

/-- The command that the members state. -/
def Draft.command? (draft : Draft) : Option Command := do
  match ← draft.name with
  | "start" => return .start
  | "stop" => return .stop
  | "status" => return .status
  | "set_rssi" => return .setRssi (← draft.minRssi.join)
  | "set_window" => return .setWindow (← draft.windowMs.join)
  | _ => none

def isOuterBlank (b : UInt8) : Bool := isBlank b || b = byte '\x0c'

/-- Bytes without the blanks at their ends. -/
def trim (input : Bytes) : Bytes :=
  ((input.dropWhile isOuterBlank).reverse.dropWhile isOuterBlank).reverse

/-- The object that is all of the input. -/
def object? (input : Bytes) : Option Draft := do
  let (b, rest) ← next? input
  if b = byte '\x7b' then
    let (draft, rest) ← members? {} true rest.1
    if rest.all isBlank then return draft else none
  else none

/-- The command that a line of the host states. -/
def read? (line : Bytes) : Option Command := do (← object? (trim line)).command?

end Command

end Proximity
