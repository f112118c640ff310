import Proximity.Proofs.Monitor.Host
import Proximity.Proofs.Monitor.Limits
import Proximity.Proofs.Tracker.Shelter

/-! Visible beacons against occupied regions. A region that holds a visible beacon is occupied, as
long as every purge drops beacons no later than regions. -/

namespace Proximity.Monitor

/-- Regions were seen no earlier than the visible beacons inside them. -/
structure Sheltered (monitor : Monitor) (now : Nanoseconds) : Prop where
  mode : monitor.regions.mode = .region
  seen : monitor.regions.SeenBy now
  shelters : monitor.regions.Shelters monitor.objects

namespace Sheltered

variable {monitor : Monitor} {now : Nanoseconds}

theorem process (sheltered : monitor.Sheltered now) (received : Received) :
    (monitor.process now received).1.Sheltered now := by
  rcases Session.process_cases monitor now received with same | ⟨signal, beacon, same⟩ <;> rw [same]
  · exact sheltered
  · exact ⟨Tracker.mode_track.trans sheltered.mode, sheltered.seen.track,
      sheltered.shelters.track sheltered.mode sheltered.seen⟩

theorem purge (sheltered : monitor.Sheltered now) (tuned : monitor.Tuned)
    (outlast : monitor.config.objectExpirationMs ≤ monitor.config.regionExpirationMs) :
    (monitor.purge now).Sheltered now := by
  refine ⟨sheltered.mode, sheltered.seen.purge, sheltered.shelters.purge ?_⟩
  rw [tuned.objects, tuned.regions]
  exact Nat.mul_le_mul_left _ (UInt32.le_iff_toNat_le.mp outlast)

theorem feed (sheltered : monitor.Sheltered now) (bytes : Bytes) :
    (monitor.feed bytes).1.Sheltered now :=
  Session.feed_invariant (motive := fun later => later.Sheltered now) bytes
    (fun _ => ⟨sheltered.mode, sheltered.seen, sheltered.shelters⟩)
    fun _ _ later => ⟨later.mode, later.seen, later.shelters⟩

end Sheltered

namespace Session

/-- Whenever the run purges, the settings keep regions at least as long as beacons. -/
def RegionsOutlast (session : Session) (actions : List Action) : Prop :=
  ∀ before after, actions = before ++ .purge :: after →
    let config := (session.run before).monitor.config
    config.objectExpirationMs ≤ config.regionExpirationMs

variable {session : Session} {actions : List Action} {action : Action}

theorem step_sheltered (sheltered : session.monitor.Sheltered session.now)
    (tuned : session.monitor.Tuned)
    (outlast : action = .purge →
      session.monitor.config.objectExpirationMs ≤ session.monitor.config.regionExpirationMs) :
    (session.step action).monitor.Sheltered (session.step action).now := by
  cases action with
  | process received => exact sheltered.process received
  | purge => exact sheltered.purge tuned (outlast rfl)
  | feed bytes => exact sheltered.feed bytes
  | advance duration =>
    exact ⟨sheltered.mode, sheltered.seen.mono (Nat.le_add_right _ _), sheltered.shelters⟩
  | report | setConfig _ | command _ =>
    exact ⟨sheltered.mode, sheltered.seen, sheltered.shelters⟩

theorem start_sheltered (time : Nanoseconds) (layouts : List Layout) (regions : List Region)
    (config : Config) : (start time layouts regions config).monitor.Sheltered time :=
  ⟨rfl, fun _ _ stored => (by cases stored), fun _ _ _ stored => (by cases stored)⟩

theorem regionsOutlast_cons : session.RegionsOutlast (action :: actions) ↔
    (action = .purge →
      session.monitor.config.objectExpirationMs ≤ session.monitor.config.regionExpirationMs) ∧
      (session.step action).RegionsOutlast actions := by
  constructor
  · intro outlast
    exact ⟨fun isPurge => outlast [] actions (by rw [isPurge]; rfl),
      fun before after split => outlast (action :: before) after (by rw [split]; rfl)⟩
  · rintro ⟨first, later⟩ before after split
    cases before with
    | nil =>
      cases split
      exact first rfl
    | cons _ before =>
      obtain ⟨rfl, rest⟩ := List.cons.inj split
      exact later before after rest

theorem regionsOutlast_nil : session.RegionsOutlast [] := by
  intro before after split
  cases before <;> cases split

theorem run_sheltered (sheltered : session.monitor.Sheltered session.now)
    (tuned : session.monitor.Tuned) (outlast : session.RegionsOutlast actions) :
    (session.run actions).monitor.Sheltered (session.run actions).now := by
  induction actions generalizing session with
  | nil => exact sheltered
  | cons action actions ih =>
    obtain ⟨first, later⟩ := regionsOutlast_cons.mp outlast
    exact ih (step_sheltered sheltered tuned first) (step_tuned tuned) later

theorem run_monitored :
    (session.run actions).monitor.regions.regions = session.monitor.regions.regions := by
  refine run_invariant (motive := fun later => later.monitor.regions.regions = _) ?_ rfl
  intro later action same
  have kept : (later.step action).regions.tracker.regions = later.regions.tracker.regions := by
    rw [regions_step]
    exact Tracker.Session.run_regions
  exact kept.trans same

/-- After any run in which every purge keeps regions at least as long as beacons, each region that
holds a visible beacon is occupied: a region by its name is among the occupied ones. -/
theorem occupied_of_visible (time : Nanoseconds) (layouts : List Layout) (regions : List Region)
    (config : Config) (actions : List Action)
    (outlast : (start time layouts regions config).RegionsOutlast actions) :
    let monitor := ((start time layouts regions config).run actions).monitor
    ∀ beacon ∈ monitor.visibleBeacons, ∀ region ∈ regions, region.holds beacon →
      ∃ occupied ∈ monitor.occupiedRegions, occupied.name = region.name := by
  intro monitor beacon visible region member holds
  have sheltered : monitor.Sheltered _ :=
    run_sheltered (start_sheltered time layouts regions config)
      (tuned_ofLayouts layouts regions config) outlast
  have keyed : monitor.regions.Keyed :=
    run_invariant (motive := fun later => later.monitor.regions.Keyed) (fun _ _ => step_keyed)
      (start_keyed time layouts regions config)
  have monitored : monitor.regions.regions = regions := run_monitored
  obtain ⟨key, presence, stored, isBeacon⟩ := Tracker.mem_visibleBeacons.mp visible
  obtain ⟨place, live, -⟩ :=
    sheltered.shelters key presence beacon stored isBeacon region (monitored ▸ member) holds
  exact keyed.exists_mem_visibleRegions live

/-- Beacons may be kept longer than regions for a while, if no purge falls into that time. -/
theorem occupied_of_visible_hall :
    let session := start 0 [bare] [{ name := "hall" }] {}
    let actions := [.process sighting, .setConfig { objectExpirationMs := 60000 },
      .advance (milliseconds 31000),
      .setConfig { regionExpirationMs := 60000, objectExpirationMs := 60000 }, .purge]
    let monitor := (session.run actions).monitor
    session.RegionsOutlast actions ∧ monitor.visibleBeacons.length = 1 ∧
      ∀ beacon ∈ monitor.visibleBeacons, ∀ region ∈ [({ name := "hall" } : Region)],
        region.holds beacon →
          ∃ occupied ∈ monitor.occupiedRegions, occupied.name = region.name := by
  intro session actions monitor
  have outlast : session.RegionsOutlast actions := by
    simp only [actions, regionsOutlast_cons]
    exact ⟨nofun, nofun, nofun, nofun, fun _ => by decide +kernel, regionsOutlast_nil⟩
  refine ⟨outlast, by decide +kernel, ?_⟩
  exact occupied_of_visible 0 [bare] [{ name := "hall" }] {} actions outlast

end Session

end Proximity.Monitor
