import Proximity.Proofs.SignalWindow.Run
import Mathlib.Algebra.Ring.Int.Defs
import Mathlib.Data.List.Basic

/-! What a window holds is a matter of history. A reading counts as long as every judgement of it,
whatever the length of the window was then, found it young enough; a reading that was dropped does
not come back when the window grows. -/

namespace Proximity

namespace Reading

/-- The sum of signal strengths, divided by their number. -/
def quotient (readings : List Reading) : Float :=
  Float.ofInt (readings.map (·.rssi.toInt)).sum / Float.ofNat readings.length

theorem total_eq_sum (readings : List Reading) :
    total readings = (readings.map (·.rssi.toInt)).sum := by
  induction readings using List.reverseRecOn with
  | nil => rfl
  | append_singleton readings reading ih =>
    rw [total] at ih ⊢
    rw [List.foldl_concat, ih]
    simp

theorem mean_eq (readings : List Reading) :
    mean readings = if readings = [] then 0.0 else quotient readings := by
  rw [mean, quotient, ← total_eq_sum]
  simp only [List.isEmpty_iff]

end Reading

namespace SignalWindow

variable (time length : Nanoseconds) (actions : List Action) (device : String)

/-- The reading of the device that the action at position `k` adds. -/
def readingAt? (k : Nat) : Option Reading :=
  (actions[k]?.bind (·.added? device)).map (⟨clock time (actions.take k), ·⟩)

/-- What was added at position `k` is no older than the window is long whenever readings of the
device are judged, from its addition on. -/
def Lasts (k : Nat) : Prop :=
  ∀ j < actions.length, k ≤ j → actions[j]?.any (·.judges device) →
    clock time (actions.take j) - clock time (actions.take k) ≤ inForce length (actions.take j)

instance (k : Nat) : Decidable (Lasts time length actions device k) :=
  inferInstanceAs (Decidable (∀ j < actions.length, _))

/-- The readings of the device that lasted, in the order in which they were added. -/
def survivors : List Reading :=
  (List.range actions.length).filterMap fun k =>
    if Lasts time length actions device k then readingAt? time actions device k else none

variable {time length actions device} {action : Action} {k : Nat}

theorem readingAt?_concat (early : k < actions.length) :
    readingAt? time (actions ++ [action]) device k = readingAt? time actions device k := by
  rw [readingAt?, readingAt?, List.getElem?_append_left early,
    List.take_append_of_le_length (Nat.le_of_lt early)]

theorem readingAt?_length : readingAt? time (actions ++ [action]) device actions.length =
    (action.added? device).map (⟨clock time actions, ·⟩) := by
  simp [readingAt?]

theorem lasts_concat (early : k < actions.length) :
    Lasts time length (actions ++ [action]) device k ↔ Lasts time length actions device k ∧
      (action.judges device →
        clock time actions - clock time (actions.take k) ≤ inForce length actions) := by
  unfold Lasts
  rw [List.length_append, List.length_singleton, List.take_append_of_le_length (Nat.le_of_lt early),
    Nat.forall_lt_succ_right]
  refine and_congr (forall₂_congr fun j inside => ?_) ?_
  · rw [List.getElem?_append_left inside, List.take_append_of_le_length (Nat.le_of_lt inside)]
  · simp [Nat.le_of_lt early]

/-- A reading is not too old when it is added. -/
theorem lasts_length : Lasts time length (actions ++ [action]) device actions.length := by
  intro j inside late judged
  obtain rfl : j = actions.length := by
    rw [List.length_append, List.length_singleton] at inside
    omega
  rw [Nat.sub_self]
  exact Nat.zero_le _

theorem time_of_readingAt? {reading : Reading}
    (added : readingAt? time actions device k = some reading) :
    reading.time = clock time (actions.take k) := by
  obtain ⟨rssi, -, rfl⟩ := Option.map_eq_some_iff.mp added
  rfl

/-- A new reading is judged young enough. -/
theorem recent_added :
    Reading.recent (inForce length actions) (clock time actions)
        ((action.added? device).toList.map (⟨clock time actions, ·⟩)) =
      (action.added? device).toList.map (⟨clock time actions, ·⟩) := by
  rw [Reading.recent, List.filter_eq_self]
  intro reading new
  obtain ⟨rssi, -, rfl⟩ := List.mem_map.mp new
  simp

/-- An action that judges the readings of a device leaves those that are young enough, a new one
among them. -/
theorem survivors_concat : survivors time length (actions ++ [action]) device =
    if action.judges device then
      Reading.recent (inForce length actions) (clock time actions)
        (survivors time length actions device ++
          (action.added? device).toList.map (⟨clock time actions, ·⟩))
    else survivors time length actions device := by
  have split : survivors time length (actions ++ [action]) device =
      ((List.range actions.length).filterMap fun k =>
        if Lasts time length (actions ++ [action]) device k then
          readingAt? time actions device k else none) ++
        (action.added? device).toList.map (⟨clock time actions, ·⟩) := by
    rw [survivors, List.length_append, List.length_singleton, List.range_succ,
      List.filterMap_append]
    congr 1
    · refine List.filterMap_congr fun k early => ?_
      rw [readingAt?_concat (List.mem_range.mp early)]
    · cases added : action.added? device <;> simp [lasts_length, readingAt?_length, added]
  rw [split]
  split
  · rename_i judged
    rw [Reading.recent, List.filter_append, ← Reading.recent, ← Reading.recent, recent_added]
    congr 1
    rw [survivors, Reading.recent, List.filter_filterMap]
    refine List.filterMap_congr fun k early => ?_
    have lasts : Lasts time length (actions ++ [action]) device k ↔ _ :=
      lasts_concat (List.mem_range.mp early)
    cases added : readingAt? time actions device k with
    | none => simp
    | some reading =>
      rw [← time_of_readingAt? added] at lasts
      by_cases before : Lasts time length actions device k <;>
        simp [lasts, before, judged, Option.filter]
  · rename_i ignored
    have silent : action.added? device = none := by
      cases action <;> simp_all [Action.judges, Action.added?]
    rw [silent, Option.toList_none, List.map_nil, List.append_nil, survivors]
    refine List.filterMap_congr fun k early => ?_
    have lasts : Lasts time length (actions ++ [action]) device k ↔ _ :=
      lasts_concat (List.mem_range.mp early)
    simp only [lasts, ignored, Bool.false_eq_true, false_implies, and_true]

/-- After any run a window holds the readings of a device that lasted. -/
theorem held_run : ((Session.start time length).run actions).held device =
    survivors time length actions device := by
  induction actions using List.reverseRecOn with
  | nil => rfl
  | append_singleton actions action ih =>
    rw [Session.run_concat, Session.held_step, survivors_concat, ih, Session.run_start_now,
      Session.run_start_length]

theorem counted_run (asks : action.asks? = some device) :
    ((Session.start time length).run actions).counted action =
      survivors time length (actions ++ [action]) device := by
  rw [Session.counted_eq_held asks, ← Session.run_concat, held_run]

/-- A device none of whose readings last is dropped when it is looked at. -/
theorem get?_step_of_survivors_eq_nil (looks : action = .average device ∨ action = .count device)
    (gone : survivors time length (actions ++ [action]) device = []) :
    (((Session.start time length).run actions).step action).window.readings.get? device = none := by
  rcases looks with rfl | rfl <;>
  · rw [← counted_run rfl] at gone
    rw [Session.step, get?_look, if_pos rfl]
    exact Option.guard_eq_none_iff.mpr (by simpa [Session.counted] using gone)

/-- After any run, what is averaged or counted of a device are the readings that lasted up to then.
The mean is their sum divided by their number. A reading that is added counts itself; where none are
left the mean and the number are zero, and the device is held no longer. -/
theorem answers_of_survivors (time length : Nanoseconds) (actions : List Action) (device : String) :
    let session := (Session.start time length).run actions
    let lasting (action : Action) := survivors time length (actions ++ [action]) device
    (∀ rssi, session.counted (.add device rssi) = lasting (.add device rssi) ∧
      (lasting (.add device rssi)).getLast? = some ⟨session.now, rssi⟩ ∧
      session.answer? (.add device rssi) =
        some (.mean (Reading.quotient (lasting (.add device rssi))))) ∧
    (session.counted (.average device) = lasting (.average device) ∧
      session.answer? (.average device) = some (.mean
        (if lasting (.average device) = [] then 0.0
          else Reading.quotient (lasting (.average device)))) ∧
      (lasting (.average device) = [] →
        (session.step (.average device)).window.readings.get? device = none)) ∧
    (session.counted (.count device) = lasting (.count device) ∧
      session.answer? (.count device) = some (.count (lasting (.count device)).length) ∧
      (lasting (.count device) = [] →
        (session.step (.count device)).window.readings.get? device = none)) := by
  refine ⟨fun rssi => ?_, ⟨counted_run rfl, ?_, ?_⟩, ⟨counted_run rfl, ?_, ?_⟩⟩
  · have last : (survivors time length (actions ++ [.add device rssi]) device).getLast? =
        some ⟨((Session.start time length).run actions).now, rssi⟩ := by
      rw [survivors_concat, Session.run_start_now]
      simp [Action.judges, Action.added?, Reading.recent]
    have nonempty : survivors time length (actions ++ [.add device rssi]) device ≠ [] := by
      intro none
      rw [none] at last
      cases last
    refine ⟨counted_run rfl, last, ?_⟩
    rw [Session.answer?, counted_run rfl, Reading.mean_eq, if_neg nonempty]
  · rw [Session.answer?, counted_run rfl, Reading.mean_eq]
  · exact get?_step_of_survivors_eq_nil (.inl rfl)
  · rw [Session.answer?, counted_run rfl]
  · exact get?_step_of_survivors_eq_nil (.inr rfl)

end SignalWindow

end Proximity
