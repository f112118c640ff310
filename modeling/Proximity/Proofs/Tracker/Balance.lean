import Proximity.Proofs.Tracker.Pending

/-! Presence against what is pending. Which of the two pending lists have a key tells how the
presence of the key differs from that at the last report, except where both have it: the key came
and went then, and either may have been the last. -/

namespace Proximity.Tracker

/-- What is pending tells of the presence of the key, given whether it was present `before`. -/
structure Balanced (tracker : Tracker) (key : SubjectKey) (before : Prop) : Prop where
  came : key ∈ tracker.entered.map Subject.key → key ∉ tracker.exited.map Subject.key →
    tracker.Present key
  went : key ∉ tracker.entered.map Subject.key → key ∈ tracker.exited.map Subject.key →
    ¬ tracker.Present key
  stayed : key ∉ tracker.entered.map Subject.key → key ∉ tracker.exited.map Subject.key →
    (tracker.Present key ↔ before)

section Lists

variable {tracker : Tracker} {subjects more : List Subject} {key : SubjectKey} {now : Nanoseconds}

theorem mem_keys_note {subject : Subject} :
    key ∈ (note subjects subject).map Subject.key ↔
      key ∈ subjects.map Subject.key ∨ key = subject.key := by
  unfold note
  split
  · rename_i listed
    obtain ⟨other, member, same⟩ := List.any_eq_true.mp listed
    have already : subject.key ∈ subjects.map Subject.key :=
      List.mem_map.mpr ⟨other, member, of_decide_eq_true same⟩
    exact ⟨Or.inl, fun h => h.elim id fun same => same ▸ already⟩
  · simp

theorem mem_keys_foldl_note : key ∈ (more.foldl note subjects).map Subject.key ↔
    key ∈ subjects.map Subject.key ∨ key ∈ more.map Subject.key := by
  induction more generalizing subjects with
  | nil => simp
  | cons subject more ih =>
    rw [List.foldl_cons, ih, mem_keys_note, List.map_cons, List.mem_cons, or_assoc]

/-- A key is pending as come after sightings of subjects if it was before, or if a subject has it
and it was not present. -/
theorem mem_keys_entered_foldl_refresh :
    key ∈ (subjects.foldl (refresh now) tracker).entered.map Subject.key ↔
      key ∈ tracker.entered.map Subject.key ∨
        key ∈ subjects.map Subject.key ∧ ¬ tracker.Present key := by
  induction subjects using List.reverseRecOn with
  | nil => simp
  | append_singleton subjects subject ih =>
    rw [List.foldl_concat, entered_refresh, List.map_append, List.mem_append, List.map_singleton,
      List.mem_singleton]
    split
    · rename_i present
      have known := present_foldl_refresh.mp present
      rw [ih]
      grind
    · rename_i absent
      rw [present_foldl_refresh, not_or] at absent
      rw [mem_keys_note, ih]
      grind

end Lists

namespace Session

variable {session : Session} {action : Action} {key : SubjectKey} {before : Prop}

theorem mem_entered_step (quiet : ¬ action.isReport) :
    key ∈ (session.step action).tracker.entered.map Subject.key ↔
      key ∈ session.tracker.entered.map Subject.key ∨ session.Arrives action key := by
  rw [← mem_arrivals]
  cases action with
  | track beacon =>
    rw [arrivals_track, List.mem_filter, decide_eq_true_iff]
    exact mem_keys_entered_foldl_refresh
  | clear | take => exact absurd rfl quiet
  | purge | setExpiration _ | advance _ =>
    rw [arrivals_of_ne_track (by simp)]
    simp [step, Tracker.purge, setExpiration]

theorem mem_exited_step (keyed : session.tracker.Keyed) (quiet : ¬ action.isReport) :
    key ∈ (session.step action).tracker.exited.map Subject.key ↔
      key ∈ session.tracker.exited.map Subject.key ∨ session.Departs action key := by
  rw [← mem_departures]
  cases action with
  | purge =>
    rw [departures_purge keyed]
    exact mem_keys_foldl_note
  | clear | take => exact absurd rfl quiet
  | track beacon =>
    have same : (session.step (.track beacon)).tracker.exited = session.tracker.exited :=
      exited_track
    rw [departures_of_ne_purge (by simp), same]
    simp
  | setExpiration _ | advance _ =>
    rw [departures_of_ne_purge (by simp)]
    simp [step, setExpiration]

theorem balanced_step (keyed : session.tracker.Keyed) (quiet : ¬ action.isReport)
    (balanced : session.tracker.Balanced key before) :
    (session.step action).tracker.Balanced key before := by
  obtain ⟨came, went, stayed⟩ := balanced
  have entered : key ∈ (session.step action).tracker.entered.map Subject.key ↔ _ :=
    mem_entered_step quiet
  have exited : key ∈ (session.step action).tracker.exited.map Subject.key ↔ _ :=
    mem_exited_step keyed quiet
  -- A key is newly listed exactly where its presence changes.
  unfold Arrives at entered
  unfold Departs at exited
  constructor <;> grind

theorem balanced_run {actions : List Action} (keyed : session.tracker.Keyed)
    (quiet : ∀ action ∈ actions, ¬ action.isReport)
    (balanced : session.tracker.Balanced key before) :
    (session.run actions).tracker.Balanced key before := by
  induction actions generalizing session with
  | nil => exact balanced
  | cons action actions ih =>
    exact ih (step_keyed keyed) (fun other member => quiet other (List.mem_cons_of_mem _ member))
      (balanced_step keyed (quiet action List.mem_cons_self) balanced)

end Session

theorem balanced_clear {tracker : Tracker} {key : SubjectKey} :
    tracker.clear.Balanced key (tracker.Present key) :=
  ⟨fun impossible => by simp [clear] at impossible,
    fun _ impossible => by simp [clear] at impossible, fun _ _ => Iff.rfl⟩

end Proximity.Tracker
