import Proximity.Proofs.SignalWindow.History
import Mathlib.Algebra.Order.BigOperators.Group.List
import Mathlib.Data.Finset.Max
import Mathlib.Data.Rat.Cast.Order

/-! The readings that a window holds of a device. They stand in the order in which they were made,
so that what is too old stands in front of what counts. No device is held without a reading, so that
a mean always has something to divide by, and it lies between the weakest and the strongest of the
signals that it is taken of. -/

namespace Proximity

namespace Reading

variable {readings : List Reading} {now later length : Nanoseconds} {new : Option Int16}

/-- Readings in the order in which they were made, none of them in the future. -/
structure Chronicle (now : Nanoseconds) (readings : List Reading) : Prop where
  ascending : readings.Pairwise fun earlier reading => earlier.time ≤ reading.time
  past : ∀ reading ∈ readings, reading.time ≤ now

namespace Chronicle

theorem nil : Chronicle now [] := ⟨.nil, by simp⟩

theorem mono (chronicle : Chronicle now readings) (le : now ≤ later) : Chronicle later readings :=
  ⟨chronicle.ascending, fun reading member => Nat.le_trans (chronicle.past reading member) le⟩

theorem recent (chronicle : Chronicle now readings) :
    Chronicle now (Reading.recent length later readings) where
  ascending := chronicle.ascending.sublist List.filter_sublist
  past reading member := chronicle.past reading (List.mem_of_mem_filter member)

/-- A reading that is made now is the latest. -/
theorem append_new (chronicle : Chronicle now readings) :
    Chronicle now (readings ++ new.toList.map (⟨now, ·⟩)) := by
  cases new with
  | none => simpa using chronicle
  | some rssi =>
    refine ⟨List.pairwise_append.mpr ⟨chronicle.ascending, List.pairwise_singleton _ _, ?_⟩,
      List.forall_mem_append.mpr ⟨chronicle.past, by simp⟩⟩
    intro earlier member reading latest
    rw [List.mem_singleton.mp latest]
    exact chronicle.past earlier member

end Chronicle

/-- What does not count is a leading part: whatever stands behind a reading that is young enough is
younger still. -/
theorem exists_append_recent
    (ascending : readings.Pairwise fun earlier reading => earlier.time ≤ reading.time) :
    ∃ old, readings = old ++ recent length now readings ∧
      ∀ reading ∈ old, length < now - reading.time := by
  induction readings with
  | nil => exact ⟨[], rfl, by simp⟩
  | cons first readings ih =>
    obtain ⟨before, ascending⟩ := List.pairwise_cons.mp ascending
    by_cases young : now - first.time ≤ length
    · have whole : recent length now (first :: readings) = first :: readings := by
        refine List.filter_eq_self.mpr fun reading member => decide_eq_true ?_
        have younger : first.time ≤ reading.time := by
          rcases List.mem_cons.mp member with rfl | behind
          · exact Nat.le_refl _
          · exact before reading behind
        exact Nat.le_trans (Nat.sub_le_sub_left younger now) young
      exact ⟨[], whole.symm, by simp⟩
    · obtain ⟨old, split, tooOld⟩ := ih ascending
      refine ⟨first :: old, ?_, List.forall_mem_cons.mpr ⟨Nat.not_le.mp young, tooOld⟩⟩
      rw [recent, List.filter_cons_of_neg (by simpa using young), List.cons_append, ← recent,
        ← split]

/-- The mean of the signal strengths as it would be without rounding. -/
def exactMean (readings : List Reading) : ℚ :=
  (readings.map (·.rssi.toInt)).sum / readings.length

/-- The mean is a sum that is divided by a number of readings, which is not zero, and lies between
the weakest and the strongest of them before it is rounded. -/
structure IsMeanOf (mean : Float) (readings : List Reading) : Prop where
  quotient : mean = quotient readings
  divisor : readings.length ≠ 0
  between : ∃ weakest ∈ readings, ∃ strongest ∈ readings,
    (∀ reading ∈ readings, weakest.rssi.toInt ≤ reading.rssi.toInt ∧
      reading.rssi.toInt ≤ strongest.rssi.toInt) ∧
    weakest.rssi.toInt ≤ exactMean readings ∧ exactMean readings ≤ strongest.rssi.toInt

theorem exists_weakest_strongest (nonempty : readings ≠ []) :
    ∃ weakest ∈ readings, ∃ strongest ∈ readings, ∀ reading ∈ readings,
      weakest.rssi.toInt ≤ reading.rssi.toInt ∧ reading.rssi.toInt ≤ strongest.rssi.toInt := by
  have some : readings.toFinset.Nonempty := List.toFinset_nonempty_iff _ |>.mpr nonempty
  obtain ⟨weakest, isReading, least⟩ :=
    readings.toFinset.exists_min_image (·.rssi.toInt) some
  obtain ⟨strongest, isReading', greatest⟩ :=
    readings.toFinset.exists_max_image (·.rssi.toInt) some
  simp only [List.mem_toFinset] at isReading least isReading' greatest
  exact ⟨weakest, isReading, strongest, isReading',
    fun reading member => ⟨least reading member, greatest reading member⟩⟩

theorem le_exactMean {low : ℤ} (nonempty : readings ≠ [])
    (bound : ∀ reading ∈ readings, low ≤ reading.rssi.toInt) : low ≤ exactMean readings := by
  have positive : (0 : ℚ) < readings.length := by exact_mod_cast List.length_pos_iff.mpr nonempty
  have sum : readings.length * low ≤ (readings.map (·.rssi.toInt)).sum := by
    simpa using List.card_nsmul_le_sum (readings.map (·.rssi.toInt)) low (by simpa using bound)
  rw [exactMean, le_div_iff₀ positive, mul_comm]
  exact_mod_cast sum

theorem exactMean_le {high : ℤ} (nonempty : readings ≠ [])
    (bound : ∀ reading ∈ readings, reading.rssi.toInt ≤ high) : exactMean readings ≤ high := by
  have positive : (0 : ℚ) < readings.length := by exact_mod_cast List.length_pos_iff.mpr nonempty
  have sum : (readings.map (·.rssi.toInt)).sum ≤ readings.length * high := by
    simpa using List.sum_le_card_nsmul (readings.map (·.rssi.toInt)) high (by simpa using bound)
  rw [exactMean, div_le_iff₀ positive, mul_comm]
  exact_mod_cast sum

theorem isMeanOf_mean (nonempty : readings ≠ []) : IsMeanOf (mean readings) readings where
  quotient := by rw [mean_eq, if_neg nonempty]
  divisor := mt List.eq_nil_of_length_eq_zero nonempty
  between := by
    obtain ⟨weakest, isReading, strongest, isReading', bounds⟩ := exists_weakest_strongest nonempty
    exact ⟨weakest, isReading, strongest, isReading', bounds,
      le_exactMean nonempty fun reading member => (bounds reading member).1,
      exactMean_le nonempty fun reading member => (bounds reading member).2⟩

end Reading

theorem Table.mem_keys_iff {κ ν : Type} [DecidableEq κ] {table : Table κ ν} {key : κ} :
    key ∈ table.entries.map Prod.fst ↔ (table.get? key).isSome := by
  simp [Option.isSome_iff_exists, get?_eq_some_iff]

namespace SignalWindow

theorem add_ne_nil {window : SignalWindow} {now : Nanoseconds} {device : String} {rssi : Int16} :
    (window.add now device rssi).2 ≠ [] := by
  refine List.ne_nil_of_mem (a := ⟨now, rssi⟩) ?_
  simp [add, Reading.recent]

namespace Session

variable {session : Session} {action : Action} {actions : List Action} {device other : String}

/-- No device is held without a reading, and those of each are in order. -/
structure Orderly (session : Session) : Prop where
  nonempty : ∀ device, session.window.readings.get? device ≠ some []
  chronicle : ∀ device, Reading.Chronicle session.now (session.held device)

theorem get?_step_of_ne (asks : action.asks? = some device) (ne : other ≠ device) :
    (session.step action).window.readings.get? other = session.window.readings.get? other := by
  cases action with
  | add _ _ => cases asks; rw [step, get?_add, if_neg ne]
  | average _ | count _ => cases asks; rw [step, get?_look, if_neg ne]
  | purge | setLength _ | advance _ => cases asks

theorem get?_step_ne_some_nil (nonempty : session.window.readings.get? device ≠ some []) :
    (session.step action).window.readings.get? device ≠ some [] := by
  cases action with
  | add other rssi =>
    rw [step, get?_add]
    split
    · exact fun empty => add_ne_nil (Option.some.inj empty)
    · exact nonempty
  | average other | count other =>
    rw [step, get?_look]
    split
    · simp [Option.guard]
    · exact nonempty
  | purge => simp [step, get?_purge, Option.filter_eq_some_iff]
  | setLength _ | advance _ => exact nonempty

theorem Orderly.step (orderly : session.Orderly) : (session.step action).Orderly where
  nonempty device := get?_step_ne_some_nil (orderly.nonempty device)
  chronicle device := by
    rw [step_now, held_step]
    refine Reading.Chronicle.mono ?_ (Nat.le_add_right _ _)
    split
    · exact (orderly.chronicle device).append_new.recent
    · exact orderly.chronicle device

theorem start_orderly {time length : Nanoseconds} : (start time length).Orderly :=
  ⟨fun _ impossible => (by cases impossible), fun _ => .nil⟩

theorem run_orderly {time length : Nanoseconds} : ((start time length).run actions).Orderly := by
  induction actions using List.reverseRecOn with
  | nil => exact start_orderly
  | append_singleton actions action ih =>
    rw [run_concat]
    exact ih.step

/-- Judging the readings of a device, a new one among them, takes away a leading part of them. -/
theorem Orderly.exists_old (orderly : session.Orderly) (judges : action.judges device) :
    ∃ old, session.held device ++ (action.added? device).toList.map (⟨session.now, ·⟩) =
        old ++ (session.step action).held device ∧
      (∀ reading ∈ old, session.window.length < session.now - reading.time) ∧
      ∀ reading ∈ (session.step action).held device,
        session.now - reading.time ≤ session.window.length := by
  rw [held_step, if_pos judges]
  obtain ⟨old, split, tooOld⟩ :=
    Reading.exists_append_recent (orderly.chronicle device).append_new.ascending
  exact ⟨old, split, tooOld, fun reading member => of_decide_eq_true (List.mem_filter.mp member).2⟩

theorem Orderly.exists_devices (orderly : session.Orderly) :
    ∃ devices : Finset String, (∀ device, device ∈ devices ↔ session.held device ≠ []) ∧
      session.window.deviceCount = devices.card := by
  refine ⟨(session.window.readings.entries.map Prod.fst).toFinset, fun device => ?_, ?_⟩
  · rw [List.mem_toFinset, Table.mem_keys_iff, held]
    have nonempty := orderly.nonempty device
    cases stored : session.window.readings.get? device with
    | none => simp
    | some readings => simpa [stored] using nonempty
  · rw [List.toFinset_card_of_nodup session.window.readings.nodup_keys, List.length_map]
    rfl

theorem answer?_add {rssi : Int16} : session.answer? (.add device rssi) =
    some (.mean (Reading.mean ((session.step (.add device rssi)).held device))) := by
  rw [answer?, counted_eq_held rfl]

theorem answer?_average : session.answer? (.average device) =
    some (.mean (Reading.mean ((session.step (.average device)).held device))) := by
  rw [answer?, counted_eq_held rfl]

theorem held_step_add_ne_nil {rssi : Int16} :
    (session.step (.add device rssi)).held device ≠ [] := by
  rw [← counted_eq_held rfl]
  exact add_ne_nil

/-- After a purge those devices are left that have a reading that counts. -/
theorem held_step_purge_ne_nil_iff : (session.step .purge).held device ≠ [] ↔
    ∃ reading ∈ session.held device, session.now - reading.time ≤ session.window.length := by
  simp [held_step, Action.judges, Action.added?, Reading.recent]

end Session

/-- After any run no device is held without a reading, and the readings of each are in the order in
which they were made, none of them in the future, so that judging them takes away a leading part.
The mean of what is left is never a division by zero and lies, before it is rounded, between the
weakest and the strongest of those readings. What is done with the readings of one device leaves
those of the others as they are, and after a purge as many devices are held as have a reading that
counts. -/
theorem queues_in_order (time length : Nanoseconds) (actions : List Action) :
    let session := (Session.start time length).run actions
    (∀ device readings, session.window.readings.get? device = some readings →
      readings ≠ [] ∧ Reading.Chronicle session.now readings) ∧
    (∀ action device, action.judges device →
      ∃ old, session.held device ++ (action.added? device).toList.map (⟨session.now, ·⟩) =
          old ++ (session.step action).held device ∧
        (∀ reading ∈ old, session.window.length < session.now - reading.time) ∧
        ∀ reading ∈ (session.step action).held device,
          session.now - reading.time ≤ session.window.length) ∧
    (∀ device rssi, ∃ mean, session.answer? (.add device rssi) = some (.mean mean) ∧
      Reading.IsMeanOf mean ((session.step (.add device rssi)).held device)) ∧
    (∀ device, (session.step (.average device)).held device ≠ [] →
      ∃ mean, session.answer? (.average device) = some (.mean mean) ∧
        Reading.IsMeanOf mean ((session.step (.average device)).held device)) ∧
    (∀ action device other, action.asks? = some device → other ≠ device →
      (session.step action).window.readings.get? other = session.window.readings.get? other) ∧
    ∃ devices : Finset String,
      (∀ device, device ∈ devices ↔
        ∃ reading ∈ session.held device, session.now - reading.time ≤ session.window.length) ∧
      (session.step .purge).window.deviceCount = devices.card := by
  intro session
  have orderly : session.Orderly := Session.run_orderly
  refine ⟨fun device readings stored => ⟨?_, ?_⟩, fun action device => orderly.exists_old,
    fun device rssi => ?_, fun device nonempty => ?_,
    fun action device other => Session.get?_step_of_ne, ?_⟩
  · rintro rfl
    exact orderly.nonempty device stored
  · have inOrder := orderly.chronicle device
    rwa [Session.held, stored] at inOrder
  · exact ⟨_, Session.answer?_add, Reading.isMeanOf_mean Session.held_step_add_ne_nil⟩
  · exact ⟨_, Session.answer?_average, Reading.isMeanOf_mean nonempty⟩
  · have purged : (session.step .purge).Orderly := orderly.step
    obtain ⟨devices, isHeld, count⟩ := purged.exists_devices
    exact ⟨devices, fun device => (isHeld device).trans Session.held_step_purge_ne_nil_iff, count⟩

/-- The window is made shorter, so that one of two readings of a device is too old. -/
theorem queues_in_order_shortened :
    let session := (Session.start 0 20).run
      [.add "a" (-80), .advance 3, .add "a" (-50), .add "b" (-40), .advance 4, .setLength 4]
    (session.window.readings.get? "a" = some [⟨0, -80⟩, ⟨3, -50⟩] ∧
      Reading.Chronicle session.now [⟨0, -80⟩, ⟨3, -50⟩]) ∧
    (Action.judges "a" (.average "a") ∧ (session.step (.average "a")).held "a" = [⟨3, -50⟩] ∧
      ∃ old, session.held "a" ++ [] = old ++ (session.step (.average "a")).held "a" ∧
        (∀ reading ∈ old, session.window.length < session.now - reading.time) ∧
        ∀ reading ∈ (session.step (.average "a")).held "a",
          session.now - reading.time ≤ session.window.length) ∧
    ((session.step (.average "a")).held "a" ≠ [] ∧
      ∃ mean, session.answer? (.average "a") = some (.mean mean) ∧
        Reading.IsMeanOf mean ((session.step (.average "a")).held "a")) ∧
    (Action.asks? (.add "a" (-60)) = some "a" ∧ "b" ≠ "a" ∧
      (session.step (.add "a" (-60))).window.readings.get? "b" =
        session.window.readings.get? "b") := by
  intro session
  obtain ⟨inOrder, judged, -, averaged, apart, -⟩ := queues_in_order 0 20
    [.add "a" (-80), .advance 3, .add "a" (-50), .add "b" (-40), .advance 4, .setLength 4]
  have stored : session.window.readings.get? "a" = some [⟨0, -80⟩, ⟨3, -50⟩] := by decide +kernel
  have left : (session.step (.average "a")).held "a" = [⟨3, -50⟩] := by decide +kernel
  have nonempty : (session.step (.average "a")).held "a" ≠ [] := by simp [left]
  exact ⟨⟨stored, (inOrder _ _ stored).2⟩, ⟨rfl, left, judged (.average "a") "a" rfl⟩,
    ⟨nonempty, averaged "a" nonempty⟩, rfl, by decide,
    apart (.add "a" (-60)) "a" "b" rfl (by decide)⟩

end SignalWindow

end Proximity
