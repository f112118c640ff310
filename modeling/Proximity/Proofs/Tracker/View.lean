import Proximity.Proofs.Tracker.Expiry
import Proximity.Proofs.Tracker.Shelter

/-! What a tracker shows. A tracker of beacons knows of beacons only and a tracker of regions only
of regions that it was given, so that the one list shows all that is present, each once and in the
order of the identifiers or of the names, and the lists of the other kind are empty. -/

namespace Proximity.Tracker

/-- All that can be seen of a tracker without changing it. -/
structure View where
  mode : Mode
  regions : List Region
  expiration : Nanoseconds
  liveCount : Nat
  visibleBeacons : List Beacon
  visibleRegions : List Region
  enteredBeacons : List Beacon
  enteredRegions : List Region
  exitedBeacons : List Beacon
  exitedRegions : List Region

def view (tracker : Tracker) : View where
  mode := tracker.mode
  regions := tracker.regions
  expiration := tracker.expiration
  liveCount := tracker.liveCount
  visibleBeacons := tracker.visibleBeacons
  visibleRegions := tracker.visibleRegions
  enteredBeacons := tracker.entered.filterMap Subject.beacon?
  enteredRegions := tracker.entered.filterMap Subject.region?
  exitedBeacons := tracker.exited.filterMap Subject.beacon?
  exitedRegions := tracker.exited.filterMap Subject.region?

/-- All that is present is shown as a beacon, in the order of the identifiers. -/
structure View.ListsBeacons (view : View) : Prop where
  ascending : view.visibleBeacons.Pairwise fun a b => compare a.ids b.ids = .lt
  complete : view.visibleBeacons.length = view.liveCount
  visibleRegions : view.visibleRegions = []
  enteredRegions : view.enteredRegions = []
  exitedRegions : view.exitedRegions = []

/-- All that is present is shown as a region that was given, in the order of the names. -/
structure View.ListsRegions (view : View) : Prop where
  ascending : view.visibleRegions.Pairwise fun a b => compare a.name b.name = .lt
  given : ∀ region ∈ view.visibleRegions, region ∈ view.regions
  complete : view.visibleRegions.length = view.liveCount
  visibleBeacons : view.visibleBeacons = []
  enteredBeacons : view.enteredBeacons = []
  exitedBeacons : view.exitedBeacons = []

/-- The subject is of the kind that is tracked and, if it is a region, one that was given. -/
def Tracks (mode : Mode) (regions : List Region) : Subject → Prop
  | .region region => mode = .region ∧ region ∈ regions
  | .beacon _ => mode = .object

/-- All that is present or pending is of the kind that is tracked. -/
structure OfKind (tracker : Tracker) : Prop where
  live : ∀ key presence, tracker.live.get? key = some presence →
    Tracks tracker.mode tracker.regions presence.subject
  entered : ∀ subject ∈ tracker.entered, Tracks tracker.mode tracker.regions subject
  exited : ∀ subject ∈ tracker.exited, Tracks tracker.mode tracker.regions subject

variable {tracker : Tracker} {mode : Mode} {regions : List Region} {beacon : Beacon}
  {subject other : Subject} {subjects more : List Subject} {now : Nanoseconds}

theorem tracks_of_mem_subjectsOf (member : subject ∈ tracker.subjectsOf beacon) :
    Tracks tracker.mode tracker.regions subject := by
  unfold subjectsOf at member
  cases kind : tracker.mode with
  | region =>
    rw [kind] at member
    obtain ⟨region, isOccupied, rfl⟩ := List.mem_map.mp member
    exact ⟨rfl, List.mem_of_mem_filter isOccupied⟩
  | object =>
    rw [kind] at member
    dsimp only at member
    split at member
    · cases member
    · rw [List.mem_singleton.mp member]
      rfl

theorem mem_of_mem_note (member : subject ∈ note subjects other) :
    subject ∈ subjects ∨ subject = other := by
  unfold note at member
  split at member
  · exact Or.inl member
  · simpa using member

theorem mem_of_mem_foldl_note (member : subject ∈ more.foldl note subjects) :
    subject ∈ subjects ∨ subject ∈ more := by
  induction more using List.reverseRecOn with
  | nil => exact Or.inl member
  | append_singleton more last ih =>
    rw [List.foldl_concat] at member
    rcases mem_of_mem_note member with earlier | rfl
    · exact (ih earlier).imp_right (List.mem_append_left _)
    · exact Or.inr (by simp)

namespace OfKind

theorem refresh (ofKind : tracker.OfKind) (tracks : Tracks tracker.mode tracker.regions subject) :
    (refresh now tracker subject).OfKind where
  live key presence stored := by
    rw [Tracker.refresh, Table.get?_insert] at stored
    split at stored
    · cases stored
      exact tracks
    · exact ofKind.live key presence stored
  entered other member := by
    rw [entered_refresh] at member
    split at member
    · exact ofKind.entered other member
    · rcases mem_of_mem_note member with earlier | rfl
      · exact ofKind.entered other earlier
      · exact tracks
  exited := ofKind.exited

theorem foldl_refresh (ofKind : tracker.OfKind)
    (tracks : ∀ subject ∈ subjects, Tracks tracker.mode tracker.regions subject) :
    (subjects.foldl (Tracker.refresh now) tracker).OfKind := by
  induction subjects generalizing tracker with
  | nil => exact ofKind
  | cons subject subjects ih =>
    exact ih (ofKind.refresh (tracks subject List.mem_cons_self)) fun other member =>
      tracks other (List.mem_cons_of_mem _ member)

theorem track (ofKind : tracker.OfKind) : (tracker.track now beacon).1.OfKind :=
  ofKind.foldl_refresh fun _ => tracks_of_mem_subjectsOf

theorem purge (ofKind : tracker.OfKind) : (tracker.purge now).1.OfKind where
  live key presence stored := ofKind.live key presence (get?_purge_eq_some_iff.mp stored).1
  entered := ofKind.entered
  exited subject member := by
    rcases mem_of_mem_foldl_note member with earlier | gone
    · exact ofKind.exited subject earlier
    · obtain ⟨entry, inside, rfl⟩ := List.mem_map.mp gone
      exact ofKind.live entry.1 entry.2 (get?_of_mem_stale inside)

theorem clear (ofKind : tracker.OfKind) : tracker.clear.OfKind :=
  ⟨ofKind.live, by simp [Tracker.clear], by simp [Tracker.clear]⟩

end OfKind

namespace Session

variable {session : Session} {action : Action} {actions : List Action}

theorem step_ofKind (ofKind : session.tracker.OfKind) : (session.step action).tracker.OfKind := by
  cases action with
  | track beacon => exact ofKind.track
  | purge => exact ofKind.purge
  | clear | take => exact ofKind.clear
  | setExpiration expiration => exact ⟨ofKind.live, ofKind.entered, ofKind.exited⟩
  | advance duration => exact ofKind

theorem start_ofKind {time : Nanoseconds} : (start time mode regions).tracker.OfKind :=
  ⟨fun _ _ impossible => (by cases impossible), by simp [start, ofMode], by simp [start, ofMode]⟩

theorem run_ofKind (ofKind : session.tracker.OfKind) : (session.run actions).tracker.OfKind :=
  run_invariant (motive := fun later => later.tracker.OfKind) (fun _ _ => step_ofKind) ofKind

end Session

section Lists

theorem map_beacon_of_tracks (tracks : ∀ subject ∈ subjects, Tracks .object regions subject) :
    (subjects.filterMap Subject.beacon?).map Subject.beacon = subjects := by
  rw [List.map_filterMap]
  refine (List.filterMap_congr fun subject member => ?_).trans List.filterMap_some
  cases subject with
  | region region => cases (tracks _ member).1
  | beacon beacon => rfl

theorem filterMap_region?_of_tracks
    (tracks : ∀ subject ∈ subjects, Tracks .object regions subject) :
    subjects.filterMap Subject.region? = [] := by
  refine List.filterMap_eq_nil_iff.mpr fun subject member => ?_
  cases subject with
  | region region => cases (tracks _ member).1
  | beacon beacon => rfl

theorem map_region_of_tracks (tracks : ∀ subject ∈ subjects, Tracks .region regions subject) :
    (subjects.filterMap Subject.region?).map Subject.region = subjects := by
  rw [List.map_filterMap]
  refine (List.filterMap_congr fun subject member => ?_).trans List.filterMap_some
  cases subject with
  | region region => rfl
  | beacon beacon => cases tracks _ member

theorem filterMap_beacon?_of_tracks
    (tracks : ∀ subject ∈ subjects, Tracks .region regions subject) :
    subjects.filterMap Subject.beacon? = [] := by
  refine List.filterMap_eq_nil_iff.mpr fun subject member => ?_
  cases subject with
  | region region => rfl
  | beacon beacon => cases tracks _ member

end Lists

theorem OfKind.visible (ofKind : tracker.OfKind) :
    ∀ subject ∈ tracker.visible, Tracks tracker.mode tracker.regions subject := by
  intro subject member
  obtain ⟨key, presence, stored, rfl⟩ := mem_visible.mp member
  exact ofKind.live key presence stored

theorem length_visible (tracker : Tracker) : tracker.visible.length = tracker.liveCount := by
  rw [visible, List.length_map, tracker.perm_sorted.length_eq, liveCount, Table.size]

theorem Keyed.pairwise_visible (keyed : tracker.Keyed) :
    tracker.visible.Pairwise fun a b => compare a.key b.key = .lt := by
  have ascending := tracker.pairwise_keys_sorted
  rw [← keyed.map_key_visible, List.pairwise_map] at ascending
  exact ascending

theorem listsBeacons (keyed : tracker.Keyed) (ofKind : tracker.OfKind)
    (object : tracker.mode = .object) : tracker.view.ListsBeacons := by
  have visible := ofKind.visible
  have entered := ofKind.entered
  have exited := ofKind.exited
  rw [object] at visible entered exited
  have all : tracker.visibleBeacons.map Subject.beacon = tracker.visible :=
    map_beacon_of_tracks visible
  refine ⟨?_, ?_, filterMap_region?_of_tracks visible, filterMap_region?_of_tracks entered,
    filterMap_region?_of_tracks exited⟩
  · have ascending := keyed.pairwise_visible
    rw [← all] at ascending
    exact List.pairwise_map.mp ascending
  · rw [view, ← length_visible, ← all, List.length_map]

theorem listsRegions (keyed : tracker.Keyed) (ofKind : tracker.OfKind)
    (region : tracker.mode = .region) : tracker.view.ListsRegions := by
  have visible := ofKind.visible
  have entered := ofKind.entered
  have exited := ofKind.exited
  rw [region] at visible entered exited
  have all : tracker.visibleRegions.map Subject.region = tracker.visible :=
    map_region_of_tracks visible
  refine ⟨?_, fun region member => ?_, ?_, filterMap_beacon?_of_tracks visible,
    filterMap_beacon?_of_tracks entered, filterMap_beacon?_of_tracks exited⟩
  · have ascending := keyed.pairwise_visible
    rw [← all] at ascending
    exact List.pairwise_map.mp ascending
  · have shown : Subject.region region ∈ tracker.visible := by
      rw [← all]
      exact List.mem_map_of_mem member
    exact (visible _ shown).2
  · rw [view, ← length_visible, ← all, List.length_map]

end Proximity.Tracker
