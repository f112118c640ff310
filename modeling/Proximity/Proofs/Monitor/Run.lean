import Proximity.Monitor
import Proximity.Proofs.Tracker.Run

/-! Runs of a monitor: advertisements, purges, reports and commands of the host in any order, with
time passing between them. What a run does to the regions is a run of their tracker. -/

namespace Proximity.Monitor

/-- An advertisement is dropped, or what it decodes to is averaged, tracked and returned. -/
theorem process_eq (monitor : Monitor) (now : Nanoseconds) (received : Received) :
    monitor.process now received = (monitor, none) ∨
      ∃ decoded beacon, monitor.decode received = some decoded ∧
        beacon = { decoded with
          averageRssi :=
            some (Reading.mean (monitor.signal.add now received.mac.text received.rssi).2) } ∧
        monitor.process now received =
          ({ monitor with
              signal := (monitor.signal.add now received.mac.text received.rssi).1
              regions := (monitor.regions.track now beacon).1
              objects := (monitor.objects.track now beacon).1 },
            some beacon) := by
  unfold process
  split
  · exact .inl rfl
  · split
    · exact .inl rfl
    · rename_i decoded decodes
      exact .inr ⟨decoded, _, decodes, rfl, rfl⟩

/-- What happens to a monitor, or that time passes. -/
inductive Action
  | process (received : Received)
  | purge
  | report
  | setConfig (config : Config)
  | command (command : Command)
  | feed (bytes : Bytes)
  | advance (duration : Nanoseconds)

/-- A monitor, the time that its clock shows, and the reports that it has given. -/
structure Session where
  now : Nanoseconds
  monitor : Monitor
  reports : List Report := []

namespace Session

def start (time : Nanoseconds) (layouts : List Layout) (regions : List Region) (config : Config) :
    Session :=
  { now := time, monitor := ofLayouts layouts regions config }

def step (session : Session) : Action → Session
  | .process received =>
    { session with monitor := (session.monitor.process session.now received).1 }
  | .purge => { session with monitor := session.monitor.purge session.now }
  | .report =>
    { session with
      monitor := session.monitor.report.1
      reports := session.reports ++ [session.monitor.report.2] }
  | .setConfig config => { session with monitor := session.monitor.setConfig config }
  | .command command => { session with monitor := (session.monitor.applyCommand command).1 }
  | .feed bytes => { session with monitor := (session.monitor.feed bytes).1 }
  | .advance duration => { session with now := session.now + duration }

def run (session : Session) (actions : List Action) : Session := actions.foldl step session

variable {session : Session} {actions : List Action} {action : Action}

theorem run_concat : session.run (actions ++ [action]) = (session.run actions).step action :=
  List.foldl_append

theorem run_invariant {motive : Session → Prop}
    (kept : ∀ session action, motive session → motive (step session action))
    (start : motive session) : motive (session.run actions) := by
  induction actions using List.reverseRecOn with
  | nil => exact start
  | append_singleton actions action ih =>
    rw [run_concat]
    exact kept _ action ih

/-- The regions of the monitor, with the clock of the monitor. -/
def regions (session : Session) : Tracker.Session := ⟨session.now, session.monitor.regions⟩

def regionActions (session : Session) : Action → List Tracker.Action
  | .process received =>
    (session.monitor.process session.now received).2.toList.map Tracker.Action.track
  | .purge => [.purge]
  | .report => [.take]
  | .setConfig config => [.setExpiration config.regionExpiration]
  | .command command => [.setExpiration (command.apply session.monitor.config).regionExpiration]
  | .feed bytes => [.setExpiration (session.monitor.feed bytes).1.regions.expiration]
  | .advance duration => [.advance duration]

/-- An advertisement changes nothing, or the beacon in it is tracked as a region's and as a
beacon. -/
theorem process_cases (monitor : Monitor) (now : Nanoseconds) (received : Received) :
    monitor.process now received = (monitor, none) ∨
      ∃ signal beacon, monitor.process now received =
        ({ monitor with
            signal
            regions := (monitor.regions.track now beacon).1
            objects := (monitor.objects.track now beacon).1 },
          some beacon) := by
  obtain same | ⟨decoded, beacon, -, -, same⟩ := process_eq monitor now received
  · exact Or.inl same
  · exact Or.inr ⟨_, beacon, same⟩

theorem process_rest (monitor : Monitor) (now : Nanoseconds) (received : Received) :
    let after := (monitor.process now received).1
    after.layouts = monitor.layouts ∧ after.config = monitor.config ∧
      after.reader = monitor.reader := by
  rcases process_cases monitor now received with same | ⟨signal, beacon, same⟩ <;> rw [same] <;>
    exact ⟨rfl, rfl, rfl⟩

theorem regions_process (monitor : Monitor) (now : Nanoseconds) (received : Received) :
    (monitor.process now received).1.regions =
      match (monitor.process now received).2 with
      | some beacon => (monitor.regions.track now beacon).1
      | none => monitor.regions := by
  rcases process_cases monitor now received with same | ⟨signal, beacon, same⟩ <;> rw [same]

/-- What reading leaves alone and every command keeps holds after bytes of the host. -/
theorem feed_invariant {motive : Monitor → Prop} {monitor : Monitor} (bytes : Bytes)
    (reads : ∀ reader, motive { monitor with reader })
    (obeys : ∀ later command, motive later → motive (later.applyCommand command).1) :
    motive (monitor.feed bytes).1 := by
  unfold feed
  refine List.foldlRecOn (motive := fun after : Monitor × Bool => motive after.1) _ _ (reads _) ?_
  rintro ⟨later, asked⟩ holds line -
  unfold applyLine
  cases Command.read? line with
  | some command => exact obeys later command holds
  | none => exact holds

/-- Bytes of the host change nothing about the regions but their expiration. -/
theorem regions_feed (monitor : Monitor) (bytes : Bytes) :
    (monitor.feed bytes).1.regions =
      monitor.regions.setExpiration (monitor.feed bytes).1.regions.expiration := by
  obtain ⟨expiration, same⟩ : ∃ expiration,
      (monitor.feed bytes).1.regions = monitor.regions.setExpiration expiration := by
    refine feed_invariant (motive := fun later =>
      ∃ expiration, later.regions = monitor.regions.setExpiration expiration) bytes
        (fun _ => ⟨_, rfl⟩) ?_
    rintro later command ⟨earlier, same⟩
    have set : (later.applyCommand command).1.regions = later.regions.setExpiration _ := rfl
    exact ⟨_, by rw [set, same]; rfl⟩
  rw [same]
  rfl

/-- What an action does to the regions is a run of their tracker. -/
theorem regions_step : (session.step action).regions =
    session.regions.run (session.regionActions action) := by
  cases action with
  | process received =>
    rw [regions, step, regionActions, regions_process]
    cases (session.monitor.process session.now received).2 <;> rfl
  | feed bytes =>
    rw [regions, step, regions_feed]
    rfl
  | _ => rfl

theorem step_keyed (keyed : session.monitor.regions.Keyed) :
    (session.step action).monitor.regions.Keyed := by
  have kept : (session.regions.run (session.regionActions action)).tracker.Keyed :=
    Tracker.Session.run_keyed keyed
  rw [← regions_step] at kept
  exact kept

theorem start_keyed (time : Nanoseconds) (layouts : List Layout) (regions : List Region)
    (config : Config) : (start time layouts regions config).monitor.regions.Keyed := by
  intro key presence stored
  cases stored

end Session

end Proximity.Monitor
