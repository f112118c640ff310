import Proximity.Proofs.Tracker.Run
import Proximity.Proofs.Tracker.Snapshot

/-! When a tracker is purged. What a purge drops is stale for every later purge too, and a sighting
makes a key as fresh as it can be. Where both of two runs end with a purge, the earlier purges do
not show in what is present. -/

namespace Proximity.Tracker

namespace Action

/-- Something is dropped or handed out, and nothing is told to the tracker. -/
def isUpkeep : Action → Bool
  | .purge | .clear | .take => true
  | .track _ | .setExpiration _ | .advance _ => false

end Action

/-- The actions that are no upkeep. -/
def events (actions : List Action) : List Action := actions.filter (!·.isUpkeep)

/-- From the time `now` on, a purge leaves the same of both trackers. -/
structure Converge (now : Nanoseconds) (tracker tracker' : Tracker) : Prop where
  mode : tracker.mode = tracker'.mode
  regions : tracker.regions = tracker'.regions
  expiration : tracker.expiration = tracker'.expiration
  left : ∀ later, now ≤ later → ∀ key,
    (tracker.purge later).1.live.get? key = (tracker'.purge later).1.live.get? key

variable {tracker tracker' : Tracker} {beacon : Beacon} {now later : Nanoseconds} {key : SubjectKey}

theorem isStale_mono {presence : Presence} (le : now ≤ later)
    (stale : tracker.isStale now presence) : tracker.isStale later presence := by
  simp only [isStale, decide_eq_true_eq] at stale ⊢
  exact Nat.lt_of_lt_of_le stale (Nat.sub_le_sub_right le _)

/-- What a purge drops, a later one would have dropped. -/
theorem get?_purge_purge (le : now ≤ later) :
    ((tracker.purge now).1.purge later).1.live.get? key =
      (tracker.purge later).1.live.get? key := by
  rw [get?_purge, get?_purge, get?_purge, Option.filter_filter]
  congr 1
  funext presence
  cases stale : tracker.isStale now presence with
  | false => rfl
  | true =>
    have staleLater : tracker.isStale later presence := isStale_mono le stale
    have same : (tracker.purge now).1.isStale later presence = tracker.isStale later presence := rfl
    rw [same, staleLater]
    rfl

theorem isStale_track : (tracker.track now beacon).1.isStale later = tracker.isStale later := by
  funext presence
  rw [isStale, isStale, expiration_track]

theorem get?_purge_track_of_sights (sights : Sights tracker.mode tracker.regions beacon key) :
    ((tracker.track now beacon).1.purge later).1.live.get? key =
      ((kept tracker.regions beacon key).map (⟨·, now⟩)).filter
        fun presence => !tracker.isStale later presence := by
  rw [get?_purge, get?_track_of_sights sights, isStale_track]

theorem get?_purge_track_of_not_sights
    (unseen : ¬ Sights tracker.mode tracker.regions beacon key) :
    ((tracker.track now beacon).1.purge later).1.live.get? key =
      (tracker.purge later).1.live.get? key := by
  rw [get?_purge, get?_track_of_not_sights unseen, isStale_track, get?_purge]

namespace Converge

theorem refl : Converge now tracker tracker := ⟨rfl, rfl, rfl, fun _ _ _ => rfl⟩

theorem mono (converge : Converge now tracker tracker') (le : now ≤ later) :
    Converge later tracker tracker' :=
  { converge with left := fun latest le' => converge.left latest (Nat.le_trans le le') }

theorem purge (converge : Converge now tracker tracker') :
    Converge now (tracker.purge now).1 tracker' :=
  { converge with
    left := fun later le key => (get?_purge_purge le).trans (converge.left later le key) }

/-- A sighting leaves the same under the keys that it is one of, and the rest as it was. -/
theorem track (converge : Converge now tracker tracker') :
    Converge now (tracker.track now beacon).1 (tracker'.track now beacon).1 := by
  refine ⟨?_, ?_, ?_, fun later le key => ?_⟩
  · rw [mode_track, mode_track, converge.mode]
  · rw [regions_track, regions_track, converge.regions]
  · rw [expiration_track, expiration_track, converge.expiration]
  have sights_iff : Sights tracker'.mode tracker'.regions beacon key ↔
      Sights tracker.mode tracker.regions beacon key := by
    rw [converge.mode, converge.regions]
  by_cases sights : Sights tracker.mode tracker.regions beacon key
  · rw [get?_purge_track_of_sights sights, get?_purge_track_of_sights (sights_iff.mpr sights),
      converge.regions]
    simp only [isStale, converge.expiration]
  · rw [get?_purge_track_of_not_sights sights,
      get?_purge_track_of_not_sights (mt sights_iff.mp sights), converge.left later le]

end Converge

theorem events_concat {actions : List Action} {action : Action} :
    events (actions ++ [action]) =
      if action.isUpkeep then events actions else events actions ++ [action] := by
  cases upkeep : action.isUpkeep <;> simp [events, upkeep]

namespace Session

variable {session session' : Session} {actions : List Action} {action : Action}

/-- Two sessions at the same time whose next purges leave the same. -/
structure Converge (session session' : Session) : Prop where
  now : session.now = session'.now
  tracker : Tracker.Converge session.now session.tracker session'.tracker

theorem Converge.upkeep (converge : Converge session session') (upkeep : action.isUpkeep) :
    Converge (session.step action) session' := by
  obtain ⟨now, tracker⟩ := converge
  cases action with
  | purge => exact ⟨now, tracker.purge⟩
  | clear | take => exact ⟨now, { tracker with }⟩
  | track _ | setExpiration _ | advance _ => cases upkeep

theorem Converge.event (converge : Converge session session') (event : ¬ action.isUpkeep)
    (unchanged : action.expiration? = none) :
    Converge (session.step action) (session'.step action) := by
  obtain ⟨now, tracker⟩ := session
  obtain ⟨now', tracker'⟩ := session'
  obtain ⟨rfl, converge⟩ := converge
  cases action with
  | track beacon => exact ⟨rfl, converge.track⟩
  | advance duration => exact ⟨rfl, converge.mono (Nat.le_add_right _ _)⟩
  | setExpiration _ => cases unchanged
  | purge | clear | take => exact absurd rfl event

/-- A run converges with the one that leaves out all upkeep. -/
theorem converge_events (unchanged : ∀ action ∈ actions, action.expiration? = none) :
    Converge (session.run actions) (session.run (events actions)) := by
  induction actions using List.reverseRecOn with
  | nil => exact ⟨rfl, .refl⟩
  | append_singleton actions action ih =>
    have before : Converge (session.run actions) (session.run (events actions)) :=
      ih fun other member => unchanged other (List.mem_append_left _ member)
    rw [run_concat, events_concat]
    split
    · rename_i upkeep
      exact before.upkeep upkeep
    · rename_i event
      rw [run_concat]
      exact before.event event (unchanged action (by simp))

end Session

theorem mem_events {actions : List Action} {action : Action} (event : ¬ action.isUpkeep) :
    action ∈ events actions ↔ action ∈ actions := by
  simp [events, event]

/-- Two runs from the same state with the same sightings and the same passing of time, in which
upkeep comes anywhere and any number of times, end with the same table if both end with a purge. -/
theorem live_eq_of_same_events {session : Session} {first second : List Action}
    (same : events first = events second)
    (unchanged : ∀ action ∈ first, action.expiration? = none) :
    let tracker := (session.run (first ++ [.purge])).tracker
    let tracker' := (session.run (second ++ [.purge])).tracker
    (∀ key, tracker.live.get? key = tracker'.live.get? key) ∧
      tracker.visibleBeacons = tracker'.visibleBeacons ∧
      tracker.visibleRegions = tracker'.visibleRegions ∧
      tracker.liveCount = tracker'.liveCount := by
  intro tracker tracker'
  have unchanged' : ∀ action ∈ second, action.expiration? = none := by
    intro action member
    by_cases upkeep : action.isUpkeep
    · cases action <;> first | rfl | cases upkeep
    · rw [← mem_events upkeep, ← same, mem_events upkeep] at member
      exact unchanged action member
  have converge : Session.Converge (session.run first) (session.run (events first)) :=
    Session.converge_events unchanged
  have converge' : Session.Converge (session.run second) (session.run (events first)) :=
    same ▸ Session.converge_events unchanged'
  have live : ∀ key, tracker.live.get? key = tracker'.live.get? key := by
    intro key
    simp only [tracker, tracker', Session.run_concat, Session.step]
    rw [converge.tracker.left _ (Nat.le_refl _), converge'.tracker.left _ (Nat.le_refl _),
      converge.now, converge'.now]
  exact ⟨live, visibleBeacons_congr live, visibleRegions_congr live, liveCount_congr live⟩

/-- In one of the runs the beacon is dropped and comes back, in the other it never leaves. -/
theorem live_eq_of_same_events_returned :
    let session : Session := ⟨0, { ofBeacons with expiration := 5 }⟩
    let beacon : Beacon := ⟨[.ofUInt16 7], by simp, -59, -60, [], none, 0, 0, none, none, none⟩
    let first : List Action := [.track beacon, .advance 6, .track { beacon with rssi := -70 }]
    let second : List Action :=
      [.track beacon, .advance 6, .take, .purge, .track { beacon with rssi := -70 }]
    let tracker := (session.run (first ++ [.purge])).tracker
    let tracker' := (session.run (second ++ [.purge])).tracker
    events first = events second ∧ (∀ action ∈ first, action.expiration? = none) ∧
      tracker.exited.length = 0 ∧ tracker'.exited.length = 1 ∧
      tracker.visibleBeacons.map (·.rssi) = [-70] ∧
      (∀ key, tracker.live.get? key = tracker'.live.get? key) ∧
      tracker.visibleBeacons = tracker'.visibleBeacons ∧
      tracker.visibleRegions = tracker'.visibleRegions ∧
      tracker.liveCount = tracker'.liveCount := by
  intro session beacon first second tracker tracker'
  have same : events first = events second := rfl
  have unchanged : ∀ action ∈ first, action.expiration? = none := by
    simp [first, Action.expiration?]
  exact ⟨same, unchanged, by decide +kernel, by decide +kernel, by decide +kernel,
    live_eq_of_same_events same unchanged⟩

end Proximity.Tracker
