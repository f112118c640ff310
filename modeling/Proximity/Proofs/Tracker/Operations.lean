import Proximity.Tracker
import Mathlib.Data.List.Basic
import Mathlib.Data.List.Induction

/-! What the operations of a tracker do to the subjects that are present. A sighting sets the keys
that it is a sighting of to the present moment, a purge drops the keys whose last sighting is too
long ago, and no other operation changes what is present. -/

namespace Proximity.Tracker

/-- A sighting of the beacon is one of the key: a region of that name holds the beacon or, where
beacons are tracked, any region does and the identifiers are those of the beacon. -/
def Sights (mode : Mode) (regions : List Region) (beacon : Beacon) : SubjectKey → Prop
  | .region name => mode = .region ∧ ∃ region ∈ regions, region.holds beacon ∧ region.name = name
  | .beacon ids => mode = .object ∧ (∃ region ∈ regions, region.holds beacon) ∧ beacon.ids = ids

/-- What a sighting of the beacon leaves under the key: the last region of that name that holds the
beacon, or the beacon. -/
def kept (regions : List Region) (beacon : Beacon) : SubjectKey → Option Subject
  | .region name =>
    (regions.filter fun region => region.holds beacon && region.name = name).getLast?.map .region
  | .beacon _ => some (.beacon beacon)

def Present (tracker : Tracker) (key : SubjectKey) : Prop := (tracker.live.get? key).isSome

instance (tracker : Tracker) (key : SubjectKey) : Decidable (tracker.Present key) :=
  inferInstanceAs (Decidable (_ = true))

/-- Every subject is stored under its own key. -/
def Keyed (tracker : Tracker) : Prop :=
  ∀ key presence, tracker.live.get? key = some presence → presence.subject.key = key

variable {tracker : Tracker} {beacon : Beacon} {key : SubjectKey} {now : Nanoseconds}

theorem filter_key_map_region {regions : List Region} {name : String} :
    (regions.map Subject.region).filter (·.key = .region name) =
      (regions.filter (·.name = name)).map .region := by
  rw [List.filter_map]
  congr 2
  funext region
  simp [Subject.key]

theorem mem_keys_subjectsOf :
    key ∈ (tracker.subjectsOf beacon).map Subject.key ↔
      Sights tracker.mode tracker.regions beacon key := by
  unfold subjectsOf
  cases mode : tracker.mode with
  | region => cases key <;> simp [Sights, Subject.key, and_assoc]
  | object =>
    by_cases occupied : ∃ region ∈ tracker.regions, region.holds beacon
    · have nonempty : ¬ (tracker.regions.filter (·.holds beacon)).isEmpty := by
        simpa using occupied
      simp only [if_neg nonempty]
      simp only [List.map_singleton, List.mem_singleton]
      cases key <;> simp [Sights, Subject.key, occupied, eq_comm (a := beacon.ids)]
    · have empty : (tracker.regions.filter (·.holds beacon)).isEmpty := by
        simpa using occupied
      simp only [if_pos empty]
      cases key <;> simp [Sights, occupied]

theorem getLast?_filter_subjectsOf (sights : Sights tracker.mode tracker.regions beacon key) :
    ((tracker.subjectsOf beacon).filter (·.key = key)).getLast? =
      kept tracker.regions beacon key := by
  cases key with
  | region name =>
    rw [subjectsOf, sights.1, filter_key_map_region, List.filter_filter, List.getLast?_map, kept]
    congr 3
    funext region
    rw [Bool.and_comm]
  | beacon ids =>
    obtain ⟨object, occupied, same⟩ := sights
    have nonempty : ¬ (tracker.regions.filter (·.holds beacon)).isEmpty := by simpa using occupied
    rw [subjectsOf, object]
    simp only [if_neg nonempty]
    simp [kept, Subject.key, same]

theorem exists_kept {mode : Mode} {regions : List Region}
    (sights : Sights mode regions beacon key) :
    ∃ subject, kept regions beacon key = some subject ∧ subject.key = key := by
  cases key with
  | region name =>
    obtain ⟨-, region, member, holds, named⟩ := sights
    have found :
        region ∈ regions.filter fun region => region.holds beacon && region.name = name := by
      simp [member, holds, named]
    obtain ⟨last, isLast⟩ := Option.isSome_iff_exists.mp
      (List.getLast?_isSome.mpr (List.ne_nil_of_mem found))
    refine ⟨.region last, by rw [kept, isLast]; rfl, ?_⟩
    have := (List.mem_filter.mp (List.mem_of_getLast? isLast)).2
    simp only [Bool.and_eq_true, decide_eq_true_eq] at this
    rw [Subject.key, this.2]
  | beacon ids => exact ⟨.beacon beacon, rfl, by rw [Subject.key, sights.2.2]⟩

theorem get?_foldl_refresh {subjects : List Subject} :
    (subjects.foldl (refresh now) tracker).live.get? key =
      ((subjects.filter (·.key = key)).getLast?.map (⟨·, now⟩)).or (tracker.live.get? key) := by
  induction subjects using List.reverseRecOn with
  | nil => rfl
  | append_singleton subjects subject ih =>
    rw [List.foldl_concat, refresh, Table.get?_insert, List.filter_append]
    by_cases same : key = subject.key
    · subst same
      simp
    · rw [if_neg same, ih, List.filter_cons_of_neg (by simpa using Ne.symm same), List.filter_nil,
        List.append_nil]

theorem foldl_refresh_rest {subjects : List Subject} :
    let after := subjects.foldl (refresh now) tracker
    after.mode = tracker.mode ∧ after.regions = tracker.regions ∧
      after.expiration = tracker.expiration ∧ after.exited = tracker.exited := by
  induction subjects using List.reverseRecOn with
  | nil => exact ⟨rfl, rfl, rfl, rfl⟩
  | append_singleton subjects subject ih =>
    rw [List.foldl_concat]
    exact ih

theorem mode_track : (tracker.track now beacon).1.mode = tracker.mode := foldl_refresh_rest.1

theorem regions_track : (tracker.track now beacon).1.regions = tracker.regions :=
  foldl_refresh_rest.2.1

theorem expiration_track : (tracker.track now beacon).1.expiration = tracker.expiration :=
  foldl_refresh_rest.2.2.1

theorem exited_track : (tracker.track now beacon).1.exited = tracker.exited :=
  foldl_refresh_rest.2.2.2

/-- A key that the beacon is a sighting of is present from then on, as seen right now. -/
theorem get?_track_of_sights (sights : Sights tracker.mode tracker.regions beacon key) :
    (tracker.track now beacon).1.live.get? key =
      (kept tracker.regions beacon key).map (⟨·, now⟩) := by
  rw [track, get?_foldl_refresh, getLast?_filter_subjectsOf sights]
  obtain ⟨subject, isKept, -⟩ := exists_kept sights
  rw [isKept]
  rfl

theorem get?_track_of_not_sights (unseen : ¬ Sights tracker.mode tracker.regions beacon key) :
    (tracker.track now beacon).1.live.get? key = tracker.live.get? key := by
  rw [← mem_keys_subjectsOf, List.mem_map] at unseen
  have nothing : (tracker.subjectsOf beacon).filter (·.key = key) = [] := by
    rw [List.filter_eq_nil_iff]
    intro subject member same
    exact unseen ⟨subject, member, of_decide_eq_true same⟩
  rw [track, get?_foldl_refresh, nothing]
  rfl

/-- A purge keeps what was sighted no longer ago than the expiration. -/
theorem get?_purge :
    (tracker.purge now).1.live.get? key =
      (tracker.live.get? key).filter fun presence => !tracker.isStale now presence :=
  Table.get?_filter

theorem get?_purge_eq_some_iff {presence : Presence} :
    (tracker.purge now).1.live.get? key = some presence ↔
      tracker.live.get? key = some presence ∧ now - presence.lastSeen ≤ tracker.expiration := by
  rw [get?_purge, Option.filter_eq_some_iff, isStale, Bool.not_eq_true', decide_eq_false_iff_not,
    Nat.not_lt]

theorem Keyed.track (keyed : tracker.Keyed) : (tracker.track now beacon).1.Keyed := by
  intro key presence stored
  by_cases sights : Sights tracker.mode tracker.regions beacon key
  · obtain ⟨subject, isKept, named⟩ := exists_kept sights
    rw [get?_track_of_sights sights, isKept] at stored
    cases stored
    exact named
  · rw [get?_track_of_not_sights sights] at stored
    exact keyed key presence stored

theorem Keyed.purge (keyed : tracker.Keyed) : (tracker.purge now).1.Keyed := by
  intro key presence stored
  exact keyed key presence (get?_purge_eq_some_iff.mp stored).1

theorem Keyed.map_key_visible (keyed : tracker.Keyed) :
    tracker.visible.map Subject.key = tracker.sorted.map Prod.fst := by
  rw [visible, List.map_map]
  refine List.map_congr_left fun entry member => ?_
  rw [sorted, List.mem_mergeSort] at member
  exact keyed _ _ (Table.get?_eq_some_iff.mpr member)

end Proximity.Tracker
