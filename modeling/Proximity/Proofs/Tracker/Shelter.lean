import Proximity.Proofs.Tracker.Operations

/-! A tracker of regions beside a tracker of beacons that are given the same sightings. A beacon
that is present keeps the regions that hold it present, as long as regions are not dropped sooner
than beacons. -/

namespace Proximity.Tracker

/-- Each region that holds a present beacon is present too, and was seen no earlier. -/
def Shelters (regions objects : Tracker) : Prop :=
  ∀ key presence beacon, objects.live.get? key = some presence →
    presence.subject = .beacon beacon → ∀ region ∈ regions.regions, region.holds beacon →
      ∃ place, regions.live.get? (.region region.name) = some place ∧
        presence.lastSeen ≤ place.lastSeen

/-- Nothing that is present was seen in the future. -/
def SeenBy (tracker : Tracker) (now : Nanoseconds) : Prop :=
  ∀ key presence, tracker.live.get? key = some presence → presence.lastSeen ≤ now

variable {tracker regions objects : Tracker} {beacon : Beacon} {region : Region}
  {subject : Subject} {key : SubjectKey} {now later : Nanoseconds}

theorem SeenBy.mono (seen : tracker.SeenBy now) (le : now ≤ later) : tracker.SeenBy later :=
  fun key presence stored => Nat.le_trans (seen key presence stored) le

theorem SeenBy.track (seen : tracker.SeenBy now) : (tracker.track now beacon).1.SeenBy now := by
  intro key presence stored
  by_cases sights : Sights tracker.mode tracker.regions beacon key
  · obtain ⟨subject, isKept, -⟩ := exists_kept sights
    rw [get?_track_of_sights sights, isKept] at stored
    cases stored
    exact Nat.le_refl now
  · rw [get?_track_of_not_sights sights] at stored
    exact seen key presence stored

theorem SeenBy.purge (seen : tracker.SeenBy now) : (tracker.purge now).1.SeenBy now := by
  intro key presence stored
  exact seen key presence (get?_purge_eq_some_iff.mp stored).1

/-- A sighting never makes a key be seen earlier. -/
theorem exists_get?_track {place : Presence} (stored : tracker.live.get? key = some place)
    (seen : place.lastSeen ≤ now) :
    ∃ place', (tracker.track now beacon).1.live.get? key = some place' ∧
      place.lastSeen ≤ place'.lastSeen := by
  by_cases sights : Sights tracker.mode tracker.regions beacon key
  · obtain ⟨subject, isKept, -⟩ := exists_kept sights
    exact ⟨⟨subject, now⟩, by rw [get?_track_of_sights sights, isKept]; rfl, seen⟩
  · exact ⟨place, by rw [get?_track_of_not_sights sights, stored], Nat.le_refl _⟩

/-- A region that holds the beacon is present from a sighting of the beacon on. -/
theorem exists_get?_track_of_holds (mode : tracker.mode = .region)
    (member : region ∈ tracker.regions) (holds : region.holds beacon) :
    ∃ subject, (tracker.track now beacon).1.live.get? (.region region.name) =
      some ⟨subject, now⟩ := by
  have sights : Sights tracker.mode tracker.regions beacon (.region region.name) :=
    ⟨mode, region, member, holds, rfl⟩
  obtain ⟨subject, isKept, -⟩ := exists_kept sights
  exact ⟨subject, by rw [get?_track_of_sights sights, isKept]; rfl⟩

theorem Shelters.track (shelters : regions.Shelters objects) (mode : regions.mode = .region)
    (seen : regions.SeenBy now) :
    (regions.track now beacon).1.Shelters (objects.track now beacon).1 := by
  intro key presence sighted stored isBeacon region member holds
  rw [regions_track] at member
  -- What is stored under a key that is sighted now is this beacon, whose regions are sighted now
  -- too. Any other beacon was sheltered before, and no region is seen earlier by a sighting.
  by_cases sights : Sights objects.mode objects.regions beacon key
  · rw [get?_track_of_sights sights] at stored
    cases key with
    | region name =>
      obtain ⟨subject, isKept, rfl⟩ := Option.map_eq_some_iff.mp stored
      obtain ⟨last, -, same⟩ := Option.map_eq_some_iff.mp isKept
      cases same.trans isBeacon
    | beacon ids =>
      cases stored
      cases isBeacon
      obtain ⟨subject, live⟩ := exists_get?_track_of_holds mode member holds
      exact ⟨_, live, Nat.le_refl now⟩
  · rw [get?_track_of_not_sights sights] at stored
    obtain ⟨place, live, later⟩ := shelters key presence sighted stored isBeacon region member holds
    obtain ⟨place', live', latest⟩ := exists_get?_track live (seen _ _ live)
    exact ⟨place', live', Nat.le_trans later latest⟩

theorem Shelters.purge (shelters : regions.Shelters objects)
    (outlast : objects.expiration ≤ regions.expiration) :
    (regions.purge now).1.Shelters (objects.purge now).1 := by
  intro key presence beacon stored isBeacon region member holds
  obtain ⟨live, fresh⟩ := get?_purge_eq_some_iff.mp stored
  obtain ⟨place, there, later⟩ := shelters key presence beacon live isBeacon region member holds
  refine ⟨place, get?_purge_eq_some_iff.mpr ⟨there, ?_⟩, later⟩
  calc
    now - place.lastSeen ≤ now - presence.lastSeen := Nat.sub_le_sub_left later now
    _ ≤ objects.expiration := fresh
    _ ≤ regions.expiration := outlast

theorem mem_visible : subject ∈ tracker.visible ↔
    ∃ key presence, tracker.live.get? key = some presence ∧ presence.subject = subject := by
  simp [visible, sorted, Table.get?_eq_some_iff]

theorem mem_visibleBeacons : beacon ∈ tracker.visibleBeacons ↔
    ∃ key presence, tracker.live.get? key = some presence ∧ presence.subject = .beacon beacon := by
  rw [← mem_visible, visibleBeacons, List.mem_filterMap]
  constructor
  · rintro ⟨_ | _, member, same⟩ <;> cases same
    exact member
  · exact fun member => ⟨_, member, rfl⟩

/-- A region by the name is visible where the name is present. -/
theorem Keyed.exists_mem_visibleRegions {place : Presence} {name : String} (keyed : tracker.Keyed)
    (live : tracker.live.get? (.region name) = some place) :
    ∃ region ∈ tracker.visibleRegions, region.name = name := by
  have named := keyed _ _ live
  obtain ⟨subject, time⟩ := place
  cases subject with
  | beacon b => cases named
  | region r =>
    refine ⟨r, ?_, SubjectKey.region.inj named⟩
    exact List.mem_filterMap.mpr ⟨_, mem_visible.mpr ⟨_, _, live, rfl⟩, rfl⟩

end Proximity.Tracker
