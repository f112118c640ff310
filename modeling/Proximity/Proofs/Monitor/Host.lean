import Proximity.Proofs.Layout.Payload
import Proximity.Proofs.Monitor.Run
import Proximity.Proofs.Tracker.Balance
import Mathlib.Data.Finset.Basic
import Mathlib.Data.Finset.Dedup

/-! What a host knows of the regions that goes by the reports alone. It holds for occupied what has
come and has not gone. A report does not tell which was the last of a region that both came and
went, and the host takes it for gone; in all else the host is right. -/

namespace Proximity

namespace Report

/-- The names of the regions that came. -/
def arrivals (report : Report) : Finset String := (report.entered.map Region.name).toFinset

/-- The names of the regions that went. -/
def departures (report : Report) : Finset String := (report.exited.map Region.name).toFinset

/-- The regions that a host holds for occupied after a report: it adds what came, then removes what
went. -/
def follow (held : Finset String) (report : Report) : Finset String :=
  (held ∪ report.arrivals) \ report.departures

def latest? (reports : List Report) (name : String) : Option Report :=
  reports.reverse.find? fun report => name ∈ report.arrivals ∪ report.departures

/-- The latest report to name the region says both that it came and that it went. -/
def Undecided (reports : List Report) (name : String) : Prop :=
  ∃ report ∈ latest? reports name, name ∈ report.arrivals ∧ name ∈ report.departures

instance (reports : List Report) (name : String) : Decidable (Undecided reports name) :=
  decidable_of_iff ((latest? reports name).any fun report =>
    name ∈ report.arrivals ∧ name ∈ report.departures) (by
      simp [Undecided, Option.any_eq_true])

theorem undecided_concat {reports : List Report} {report : Report} {name : String} :
    Undecided (reports ++ [report]) name ↔
      (name ∈ report.arrivals ∧ name ∈ report.departures) ∨
        (name ∉ report.arrivals ∧ name ∉ report.departures ∧ Undecided reports name) := by
  unfold Undecided latest?
  rw [List.reverse_append, List.reverse_singleton, List.singleton_append, List.find?_cons]
  by_cases named : name ∈ report.arrivals ∪ report.departures
  · simp only [decide_eq_true named, Option.mem_some_iff, exists_eq_left']
    rw [Finset.mem_union] at named
    tauto
  · simp only [decide_eq_false named]
    rw [Finset.mem_union, not_or] at named
    tauto

end Report

namespace Monitor.Session

/-- The names of the regions that a host holds for occupied which follows the reports. -/
def held (session : Session) : Finset String := session.reports.foldl Report.follow ∅

def occupied (session : Session) : Finset String :=
  (session.monitor.occupiedRegions.map Region.name).toFinset

variable {session : Session} {actions : List Action} {action : Action} {name : String}

theorem mem_names {subjects : List Subject} :
    name ∈ (subjects.filterMap Subject.region?).map Region.name ↔
      SubjectKey.region name ∈ subjects.map Subject.key := by
  rw [List.map_filterMap, List.mem_filterMap, List.mem_map]
  refine exists_congr fun subject => and_congr_right fun _ => ?_
  cases subject <;> simp [Subject.region?, Subject.key]

theorem mem_occupied (keyed : session.monitor.regions.Keyed) :
    name ∈ session.occupied ↔ session.monitor.regions.Present (.region name) := by
  rw [occupied, List.mem_toFinset, occupiedRegions, Tracker.visibleRegions, mem_names,
    keyed.map_key_visible, Tracker.Session.mem_keys_sorted]

/-- The host is right about the region as of the last report unless that is undecided, and what is
pending tells what has changed since. -/
structure Follows (session : Session) (name : String) (before : Prop) : Prop where
  held_iff : name ∈ session.held ↔ before ∧ ¬ Report.Undecided session.reports name
  balanced : session.monitor.regions.Balanced (.region name) before

theorem follows_start {time : Nanoseconds} {layouts : List Layout} {regions : List Region}
    {config : Config} : (start time layouts regions config).Follows name False :=
  ⟨by simp [held, start],
    ⟨fun impossible => (by cases impossible), fun _ impossible => (by cases impossible),
      fun _ _ => ⟨fun impossible => (by cases impossible), False.elim⟩⟩⟩

theorem mem_arrivals_report {monitor : Monitor} : name ∈ monitor.report.2.arrivals ↔
    .region name ∈ monitor.regions.entered.map Subject.key := by
  rw [Report.arrivals, List.mem_toFinset]
  exact mem_names

theorem mem_departures_report {monitor : Monitor} : name ∈ monitor.report.2.departures ↔
    .region name ∈ monitor.regions.exited.map Subject.key := by
  rw [Report.departures, List.mem_toFinset]
  exact mem_names

/-- After a report the host is right, unless the report has left the region undecided. -/
theorem follows_report {before : Prop} (follows : session.Follows name before) :
    (session.step .report).Follows name (session.monitor.regions.Present (.region name)) := by
  obtain ⟨held_iff, came, went, stayed⟩ := follows
  refine ⟨?_, Tracker.balanced_clear⟩
  have holds : name ∈ (session.step .report).held ↔
      (name ∈ session.held ∨ name ∈ session.monitor.report.2.arrivals) ∧
        name ∉ session.monitor.report.2.departures := by
    rw [held, step, List.foldl_concat, Report.follow, Finset.mem_sdiff, Finset.mem_union, held]
  have reports : (session.step .report).reports =
      session.reports ++ [session.monitor.report.2] := rfl
  rw [holds, reports, Report.undecided_concat, mem_arrivals_report, mem_departures_report,
    held_iff]
  -- Where one list alone names the region its presence is known; where both do, the report leaves
  -- it undecided; where neither does, it is as it was and the host stays as right as it was.
  by_cases entered : .region name ∈ session.monitor.regions.entered.map Subject.key <;>
    by_cases exited : .region name ∈ session.monitor.regions.exited.map Subject.key
  · simp [entered, exited]
  · simp [entered, exited, came entered exited]
  · simp [entered, exited, went entered exited]
  · simp [entered, exited, stayed entered exited]

theorem quiet_regionActions (other : action ≠ .report) :
    ∀ change ∈ session.regionActions action, ¬ change.isReport := by
  intro change member
  cases action with
  | report => exact absurd rfl other
  | process received =>
    obtain ⟨beacon, -, rfl⟩ := List.mem_map.mp member
    simp [Tracker.Action.isReport]
  | _ =>
    cases List.mem_singleton.mp member
    simp [Tracker.Action.isReport]

theorem exists_follows_step (keyed : session.monitor.regions.Keyed)
    (follows : ∃ before, session.Follows name before) :
    ∃ before, (session.step action).Follows name before := by
  obtain ⟨before, follows⟩ := follows
  by_cases report : action = .report
  · subst report
    exact ⟨_, follows_report follows⟩
  · have reports : (session.step action).reports = session.reports := by
      cases action <;> first | rfl | exact absurd rfl report
    refine ⟨before, ?_, ?_⟩
    · rw [held, reports]
      exact follows.held_iff
    · have balanced : (session.regions.run (session.regionActions action)).tracker.Balanced
          (.region name) before :=
        Tracker.Session.balanced_run keyed (quiet_regionActions report) follows.balanced
      rw [← regions_step] at balanced
      exact balanced

theorem run_follows (time : Nanoseconds) (layouts : List Layout) (regions : List Region)
    (config : Config) (actions : List Action) (name : String) :
    let session := (start time layouts regions config).run actions
    session.monitor.regions.Keyed ∧ ∃ before, session.Follows name before :=
  run_invariant (motive := fun session =>
      session.monitor.regions.Keyed ∧ ∃ before, session.Follows name before)
    (fun _ _ kept => ⟨step_keyed kept.1, exists_follows_step kept.1 kept.2⟩)
    ⟨start_keyed time layouts regions config, False, follows_start⟩

/-- After every report of every run, a host that follows the reports holds for occupied the regions
that are, but for those of which the latest report to name them says both that they came and that
they went. -/
theorem held_eq_occupied_decided (time : Nanoseconds) (layouts : List Layout)
    (regions : List Region) (config : Config) (actions : List Action) :
    let session := (start time layouts regions config).run (actions ++ [.report])
    session.held = session.occupied.filter (¬ Report.Undecided session.reports ·) := by
  intro session
  have last : session = ((start time layouts regions config).run actions).step .report := run_concat
  ext name
  obtain ⟨keyed, before, follows⟩ := run_follows time layouts regions config actions name
  rw [last, (follows_report follows).held_iff, Finset.mem_filter, mem_occupied (step_keyed keyed)]
  rfl

/-- A layout with no more fields than a layout must have. -/
def bare : Layout where
  source := "m:2-2=1,i:3-3,p:4-4"
  fields := [.matcher ⟨.behind 2 0, [1]⟩, .identifier ⟨.behind 3 0, .big⟩, .power (.behind 4 0)]
  matcher := ⟨.behind 2 0, [1]⟩
  power := .behind 4 0
  service := none

def sighting : Received where
  mac := ⟨#v[0, 0, 0, 0, 0, 1]⟩
  data := [6, 0xff, 0x18, 0x01, 1, 7, 0xc5]
  rssi := -50
  name := none

/-- A region that comes, goes and comes back before the first report is taken for gone. -/
theorem held_ne_occupied_of_return :
    let session := (start 0 [bare] [{ name := "hall" }] {}).run
      [.process sighting, .advance (milliseconds 30001), .purge, .process sighting, .report]
    Layout.compile bare.source = .ok bare ∧ session.held = ∅ ∧ session.occupied = {"hall"} ∧
      session.held ≠ session.occupied := by
  refine ⟨by rfl, ?_, ?_, ?_⟩ <;> decide +kernel

end Monitor.Session

end Proximity
