import Proximity.Proofs.Tracker.Operations
import Mathlib.Algebra.GroupWithZero.Nat

/-! Runs of a tracker: any sequence of its operations, with time passing between them. -/

namespace Proximity.Tracker

/-- What is done with a tracker, or that time passes. -/
inductive Action
  | track (beacon : Beacon)
  | purge
  | clear
  | take
  | setExpiration (expiration : Nanoseconds)
  | advance (duration : Nanoseconds)

namespace Action

def duration : Action → Nanoseconds
  | .advance duration => duration
  | _ => 0

def expiration? : Action → Option Nanoseconds
  | .setExpiration expiration => some expiration
  | _ => none

/-- What came and went so far is dropped, or handed out. -/
def isReport : Action → Bool
  | .clear | .take => true
  | _ => false

end Action

def clock (time : Nanoseconds) (actions : List Action) : Nanoseconds :=
  time + (actions.map Action.duration).sum

/-- The expiration after the actions: the one that was set last. -/
def inForce (mode : Mode) (actions : List Action) : Nanoseconds :=
  (actions.filterMap Action.expiration?).getLast?.getD mode.expiration

/-- A tracker, and the time that its clock shows. -/
structure Session where
  now : Nanoseconds
  tracker : Tracker

namespace Session

def start (time : Nanoseconds) (mode : Mode) (regions : List Region) : Session :=
  ⟨time, ofMode mode regions⟩

def step (session : Session) : Action → Session
  | .track beacon => { session with tracker := (session.tracker.track session.now beacon).1 }
  | .purge => { session with tracker := (session.tracker.purge session.now).1 }
  | .clear => { session with tracker := session.tracker.clear }
  | .take => { session with tracker := session.tracker.take.1 }
  | .setExpiration expiration =>
    { session with tracker := session.tracker.setExpiration expiration }
  | .advance duration => { session with now := session.now + duration }

def run (session : Session) (actions : List Action) : Session := actions.foldl step session

variable {session : Session} {actions more : List Action} {action : Action}

theorem run_append : session.run (actions ++ more) = (session.run actions).run more :=
  List.foldl_append

theorem run_concat : session.run (actions ++ [action]) = (session.run actions).step action :=
  run_append

theorem step_mode : (session.step action).tracker.mode = session.tracker.mode := by
  cases action with
  | track beacon => exact mode_track
  | _ => rfl

theorem step_regions : (session.step action).tracker.regions = session.tracker.regions := by
  cases action with
  | track beacon => exact regions_track
  | _ => rfl

theorem step_now : (session.step action).now = session.now + action.duration := by
  cases action <;> rfl

theorem step_expiration :
    (session.step action).tracker.expiration =
      action.expiration?.getD session.tracker.expiration := by
  cases action with
  | track beacon => exact expiration_track
  | _ => rfl

theorem step_keyed (keyed : session.tracker.Keyed) : (session.step action).tracker.Keyed := by
  cases action with
  | track beacon => exact keyed.track
  | purge => exact keyed.purge
  | _ => exact keyed

/-- What every action keeps holds after any run. -/
theorem run_invariant {motive : Session → Prop}
    (kept : ∀ session action, motive session → motive (step session action))
    (start : motive session) : motive (session.run actions) := by
  induction actions using List.reverseRecOn with
  | nil => exact start
  | append_singleton actions action ih =>
    rw [run_concat]
    exact kept _ action ih

theorem run_mode : (session.run actions).tracker.mode = session.tracker.mode :=
  run_invariant (motive := fun later => later.tracker.mode = session.tracker.mode)
    (fun _ _ same => step_mode.trans same) rfl

theorem run_regions : (session.run actions).tracker.regions = session.tracker.regions :=
  run_invariant (motive := fun later => later.tracker.regions = session.tracker.regions)
    (fun _ _ same => step_regions.trans same) rfl

theorem run_keyed (keyed : session.tracker.Keyed) : (session.run actions).tracker.Keyed :=
  run_invariant (motive := fun later => later.tracker.Keyed) (fun _ _ => step_keyed) keyed

theorem start_keyed {time : Nanoseconds} {mode : Mode} {regions : List Region} :
    (start time mode regions).tracker.Keyed := by
  intro key presence stored
  cases stored

theorem run_start_now {time : Nanoseconds} {mode : Mode} {regions : List Region} :
    ((start time mode regions).run actions).now = clock time actions := by
  induction actions using List.reverseRecOn with
  | nil => rfl
  | append_singleton actions action ih => simp [run_concat, step_now, ih, clock, Nat.add_assoc]

theorem run_start_expiration {time : Nanoseconds} {mode : Mode} {regions : List Region} :
    ((start time mode regions).run actions).tracker.expiration = inForce mode actions := by
  induction actions using List.reverseRecOn with
  | nil => rfl
  | append_singleton actions action ih =>
    rw [run_concat, step_expiration, ih, inForce, inForce, List.filterMap_append,
      List.getLast?_append]
    cases set : action.expiration? with
    | none => simp [set]
    | some expiration => simp [set]

end Session

end Proximity.Tracker
