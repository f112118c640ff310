import Proximity.Proofs.Tracker.Balance
import Proximity.Proofs.Tracker.Shelter
import Proximity.Proofs.Tracker.Snapshot
import Mathlib.Data.List.Nodup

/-! A single sighting. It sets what it is a sighting of to the present moment, lists as come what
was neither present nor listed, and leaves the rest of the tracker alone. -/

namespace Proximity.Tracker

/-- The key is neither present nor pending as come. -/
def IsNew (tracker : Tracker) (key : SubjectKey) : Prop :=
  ¬ tracker.Present key ∧ key ∉ tracker.entered.map Subject.key

instance (tracker : Tracker) (key : SubjectKey) : Decidable (tracker.IsNew key) :=
  inferInstanceAs (Decidable (_ ∧ _))

/-- The subjects whose keys are new. Of several with one key the first counts. -/
def newcomers (tracker : Tracker) (subjects : List Subject) : List Subject :=
  (subjects.filter (tracker.IsNew ·.key)).eraseDupsBy (·.key = ·.key)

variable {tracker : Tracker} {beacon : Beacon} {now : Nanoseconds} {subject : Subject}
  {subjects : List Subject} {key : SubjectKey}

theorem isNew_refresh :
    (refresh now tracker subject).IsNew key ↔ key ≠ subject.key ∧ tracker.IsNew key := by
  have alone : refresh now tracker subject = [subject].foldl (refresh now) tracker := rfl
  rw [IsNew, IsNew, alone, present_foldl_refresh, mem_keys_entered_foldl_refresh,
    List.map_singleton, List.mem_singleton]
  tauto

theorem entered_refresh_eq_ite : (refresh now tracker subject).entered =
    if tracker.IsNew subject.key then tracker.entered ++ [subject] else tracker.entered := by
  have listed : tracker.entered.any (·.key = subject.key) ↔
      subject.key ∈ tracker.entered.map Subject.key := by simp
  rw [entered_refresh, note]
  simp only [listed, IsNew]
  by_cases present : tracker.Present subject.key
  · simp [present]
  · by_cases pending : subject.key ∈ tracker.entered.map Subject.key <;>
      simp only [present, pending, if_true, if_false, not_true, not_false_eq_true, and_self,
        and_false]

theorem entered_foldl_refresh :
    (subjects.foldl (refresh now) tracker).entered =
      tracker.entered ++ tracker.newcomers subjects := by
  induction subjects generalizing tracker with
  | nil => exact (List.append_nil _).symm
  | cons subject subjects ih =>
    rw [List.foldl_cons, ih, entered_refresh_eq_ite, newcomers, newcomers]
    -- Behind the subject its key is new no longer, which is what erases its duplicates.
    simp only [isNew_refresh]
    by_cases new : tracker.IsNew subject.key
    · rw [if_pos new, List.filter_cons_of_pos (by simpa using new), List.eraseDupsBy_cons,
        List.filter_filter, List.append_assoc, List.singleton_append]
      simp
    · have apart : ∀ other ∈ subjects, (other.key ≠ subject.key ∧ tracker.IsNew other.key) ↔
          tracker.IsNew other.key :=
        fun other _ => and_iff_right_of_imp fun isNew same => new (same ▸ isNew)
      rw [if_neg new, List.filter_cons_of_neg (by simpa using new)]
      congr 2
      exact List.filter_congr fun other member => decide_eq_decide.mpr (apart other member)

theorem entered_track : (tracker.track now beacon).1.entered =
    tracker.entered ++ tracker.newcomers (tracker.subjectsOf beacon) := entered_foldl_refresh

theorem newcomers_singleton : tracker.newcomers [subject] =
    if tracker.IsNew subject.key then [subject] else [] := by
  unfold newcomers
  split <;> rename_i new <;> simp [new, List.eraseDupsBy_cons]

/-- A sighting changes nothing but what is present and what is pending as come. -/
theorem track_eq : (tracker.track now beacon).1 =
    { tracker with
      live := (tracker.track now beacon).1.live
      entered := (tracker.track now beacon).1.entered } := by
  rw [← @mode_track tracker beacon now, ← @regions_track tracker beacon now,
    ← @expiration_track tracker beacon now, ← @exited_track tracker beacon now]

/-- A beacon that is present is the only visible one with its identifiers. -/
theorem Keyed.filter_visibleBeacons (keyed : tracker.Keyed)
    (live : tracker.live.get? (.beacon beacon.ids) = some ⟨.beacon beacon, now⟩) :
    tracker.visibleBeacons.filter (·.ids = beacon.ids) = [beacon] := by
  have distinct : tracker.visible.Nodup := by
    refine List.Nodup.of_map Subject.key ?_
    rw [keyed.map_key_visible]
    exact (tracker.perm_sorted.map Prod.fst).nodup_iff.mpr tracker.live.nodup_keys
  have once : tracker.visibleBeacons.Nodup := by
    refine distinct.filterMap fun a b beacon isA isB => ?_
    cases a <;> cases isA
    cases b <;> cases isB
    rfl
  refine List.perm_singleton.mp
    ((List.perm_ext_iff_of_nodup (once.filter _) (List.nodup_singleton _)).mpr fun other => ?_)
  rw [List.mem_filter, mem_visibleBeacons, List.mem_singleton, decide_eq_true_iff]
  constructor
  · rintro ⟨⟨key, presence, stored, isBeacon⟩, ids⟩
    have named := keyed key presence stored
    rw [isBeacon, Subject.key, ids] at named
    subst named
    rw [live, Option.some.injEq] at stored
    subst stored
    exact (Subject.beacon.inj isBeacon).symm
  · rintro rfl
    exact ⟨⟨_, _, live, rfl⟩, rfl⟩

end Proximity.Tracker
