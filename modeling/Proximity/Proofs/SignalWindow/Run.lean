import Proximity.SignalWindow
import Mathlib.Algebra.GroupWithZero.Nat
import Mathlib.Data.List.Induction

/-! Runs of a window of signal strengths: readings are added, looked at and purged, and the length
of the window is changed, with time passing in between. A device is affected only by a purge and by
what is done with its own readings. -/

namespace Proximity

namespace SignalWindow

/-- What is done with a window, or that time passes. -/
inductive Action
  | add (device : String) (rssi : Int16)
  | average (device : String)
  | count (device : String)
  | purge
  | setLength (length : Nanoseconds)
  | advance (duration : Nanoseconds)

namespace Action

def duration : Action → Nanoseconds
  | .advance duration => duration
  | _ => 0

def length? : Action → Option Nanoseconds
  | .setLength length => some length
  | _ => none

/-- The signal strength that is added for the device. -/
def added? (device : String) : Action → Option Int16
  | .add other rssi => if other = device then some rssi else none
  | _ => none

/-- The device whose readings are averaged or counted. -/
def asks? : Action → Option String
  | .add device _ | .average device | .count device => some device
  | .purge | .setLength _ | .advance _ => none

/-- The readings of the device are judged by their age. -/
def judges (device : String) : Action → Bool
  | .add other _ | .average other | .count other => other = device
  | .purge => true
  | .setLength _ | .advance _ => false

/-- Something is looked at or tidied up, and nothing is told to the window. -/
def isLook : Action → Bool
  | .average _ | .count _ | .purge => true
  | .add _ _ | .setLength _ | .advance _ => false

end Action

def clock (time : Nanoseconds) (actions : List Action) : Nanoseconds :=
  time + (actions.map Action.duration).sum

/-- The length of the window after the actions: the one that was set last. -/
def inForce (length : Nanoseconds) (actions : List Action) : Nanoseconds :=
  (actions.filterMap Action.length?).getLast?.getD length

/-- What is returned to who asks. -/
inductive Answer
  | mean (rssi : Float)
  | count (n : Nat)

/-- A window, and the time that its clock shows. -/
structure Session where
  now : Nanoseconds
  window : SignalWindow

namespace Session

def start (time length : Nanoseconds) : Session := ⟨time, ofLength length⟩

def step (session : Session) : Action → Session
  | .add device rssi =>
    { session with window := (session.window.add session.now device rssi).1 }
  | .average device | .count device =>
    { session with window := (session.window.look session.now device).1 }
  | .purge => { session with window := session.window.purge session.now }
  | .setLength length => { session with window := session.window.setLength length }
  | .advance duration => { session with now := session.now + duration }

def run (session : Session) (actions : List Action) : Session := actions.foldl step session

/-- The readings that an action averages or counts. -/
def counted (session : Session) : Action → List Reading
  | .add device rssi => (session.window.add session.now device rssi).2
  | .average device | .count device => (session.window.look session.now device).2
  | .purge | .setLength _ | .advance _ => []

/-- What an action returns. -/
def answer? (session : Session) (action : Action) : Option Answer :=
  match action with
  | .add _ _ | .average _ => some (.mean (Reading.mean (session.counted action)))
  | .count _ => some (.count (session.counted action).length)
  | .purge | .setLength _ | .advance _ => none

/-- The readings of a device that the window holds. -/
def held (session : Session) (device : String) : List Reading :=
  (session.window.readings.get? device).getD []

variable {session : Session} {actions : List Action} {action : Action} {device : String}

theorem run_concat : session.run (actions ++ [action]) = (session.run actions).step action :=
  List.foldl_append

theorem step_now : (session.step action).now = session.now + action.duration := by
  cases action <;> rfl

theorem step_length : (session.step action).window.length =
    action.length?.getD session.window.length := by
  cases action with
  | average device | count device =>
    unfold step look
    dsimp only
    split <;> rfl
  | _ => rfl

theorem run_start_now {time length : Nanoseconds} :
    ((start time length).run actions).now = clock time actions := by
  induction actions using List.reverseRecOn with
  | nil => rfl
  | append_singleton actions action ih => simp [run_concat, step_now, ih, clock, Nat.add_assoc]

theorem run_start_length {time length : Nanoseconds} :
    ((start time length).run actions).window.length = inForce length actions := by
  induction actions using List.reverseRecOn with
  | nil => rfl
  | append_singleton actions action ih =>
    rw [run_concat, step_length, ih, inForce, inForce, List.filterMap_append, List.getLast?_append]
    cases set : action.length? with
    | none => simp [set]
    | some length => simp [set]

end Session

section Held

variable {window : SignalWindow} {now : Nanoseconds} {device other : String}

theorem get?_add {rssi : Int16} : (window.add now device rssi).1.readings.get? other =
    if other = device then some (window.add now device rssi).2 else window.readings.get? other :=
  Table.get?_insert

/-- A device that is looked at is held no longer if none of its readings count. -/
theorem get?_look : (window.look now device).1.readings.get? other =
    if other = device then Option.guard (· ≠ []) (window.look now device).2
    else window.readings.get? other := by
  unfold look
  cases held : window.readings.get? device with
  | none =>
    by_cases same : other = device
    · subst same
      simp [held, Option.guard]
    · simp [same]
  | some readings =>
    dsimp only
    cases counting : Reading.recent window.length now readings with
    | nil => simp [Table.get?_erase, Option.guard]
    | cons reading rest => simp [Table.get?_insert, Option.guard]

theorem look_counts : (window.look now device).2 =
    Reading.recent window.length now ((window.readings.get? device).getD []) := by
  unfold look
  cases window.readings.get? device <;> rfl

theorem get?_purge : (window.purge now).readings.get? device =
    ((window.readings.get? device).map (Reading.recent window.length now)).filter (· ≠ []) := by
  rw [purge, Table.get?_filter, Table.get?_map]
  congr 1
  funext readings
  cases readings <;> rfl

end Held

namespace Session

variable {session : Session} {action : Action} {device : String}

/-- The readings of a device are judged if the action is about it, a new one among them, and else
they stay as they are. -/
theorem held_step : (session.step action).held device =
    if action.judges device then
      Reading.recent session.window.length session.now (session.held device ++
        (action.added? device).toList.map (⟨session.now, ·⟩))
    else session.held device := by
  cases action with
  | add other rssi =>
    rw [held, step, get?_add]
    by_cases same : other = device
    · subst same
      simp [Action.judges, Action.added?, add, held]
    · simp [Action.judges, same, Ne.symm same, held]
  | average other | count other =>
    rw [held, step, get?_look]
    by_cases same : other = device
    · subst same
      rw [if_pos rfl, look_counts]
      cases counting : Reading.recent session.window.length session.now
          ((session.window.readings.get? other).getD []) <;>
        simp [Action.judges, Action.added?, Option.guard, held, counting]
    · simp [Action.judges, same, Ne.symm same, held]
  | purge =>
    rw [held, step, get?_purge, held]
    cases session.window.readings.get? device with
    | none => simp [Action.judges, Action.added?, Reading.recent]
    | some readings =>
      cases counting : Reading.recent session.window.length session.now readings <;>
        simp [Action.judges, Action.added?, counting, Option.filter]
  | setLength length | advance duration => rfl

/-- What is averaged or counted is what is held from then on. -/
theorem counted_eq_held (asks : action.asks? = some device) :
    session.counted action = (session.step action).held device := by
  cases action with
  | add other rssi =>
    cases asks
    rw [held, step, get?_add, if_pos rfl]
    rfl
  | average other | count other =>
    cases asks
    rw [held, step, get?_look, if_pos rfl, counted]
    cases (session.window.look session.now device).2 <;> rfl
  | _ => cases asks

end Session

end SignalWindow

end Proximity
