import Proximity.Proofs.Bytes.Hex
import Proximity.Proofs.Monitor.Commands
import Proximity.Proofs.SignalWindow.Run
import Mathlib.Data.List.Basic

/-! Devices beside each other. What is returned for an advertisement of a device depends on the
layouts, the settings, the time and the readings of that device. Advertisements of other devices
change none of these. -/

namespace Proximity

theorem MacAddress.text_injective : Function.Injective MacAddress.text := by
  rintro ⟨bytes⟩ ⟨bytes'⟩ same
  have back : ∀ bytes : Vector UInt8 6,
      List.splitOn ':' ([':'].intercalate (bytes.toList.map Hex.upperDigits)) =
        bytes.toList.map Hex.upperDigits := by
    intro bytes
    refine List.splitOn_intercalate ':' ?_ (by simp)
    intro digits member mark
    obtain ⟨b, -, rfl⟩ := List.mem_map.mp member
    exact absurd (Hex.isDigit_of_mem_upperDigits mark) (by decide)
  have joined : [':'].intercalate (bytes.toList.map Hex.upperDigits) =
      [':'].intercalate (bytes'.toList.map Hex.upperDigits) := String.ofList_injective same
  have digits := back bytes
  rw [joined, back bytes'] at digits
  have sameBytes : bytes'.toList = bytes.toList :=
    List.map_injective_iff.mpr Hex.upperDigits_injective digits
  rw [Vector.toList_inj.mp sameBytes]

namespace Monitor

/-- An advertisement of the device, or no advertisement. -/
def Action.spares (mac : MacAddress) : Action → Bool
  | .process received => received.mac = mac
  | _ => true

/-- The run without the advertisements of other devices. -/
def only (mac : MacAddress) (actions : List Action) : List Action :=
  actions.filter (Action.spares mac)

/-- The monitors agree in all that an advertisement of the device is answered by. -/
structure Alike (mac : MacAddress) (monitor monitor' : Monitor) : Prop where
  layouts : monitor.layouts = monitor'.layouts
  config : monitor.config = monitor'.config
  reader : monitor.reader = monitor'.reader
  length : monitor.signal.length = monitor'.signal.length
  readings : monitor.signal.readings.get? mac.text = monitor'.signal.readings.get? mac.text

namespace Alike

variable {mac : MacAddress} {monitor monitor' : Monitor} {received : Received}

theorem setConfig (alike : Alike mac monitor monitor') (config : Config) :
    Alike mac (monitor.setConfig config) (monitor'.setConfig config) :=
  { alike with config := rfl, length := rfl }

theorem applyCommand (alike : Alike mac monitor monitor') (command : Command) :
    Alike mac (monitor.applyCommand command).1 (monitor'.applyCommand command).1 := by
  unfold Monitor.applyCommand
  rw [alike.config]
  exact alike.setConfig _

theorem obey (alike : Alike mac monitor monitor') (commands : List Command) :
    Alike mac (monitor.obey commands) (monitor'.obey commands) := by
  induction commands generalizing monitor monitor' with
  | nil => exact alike
  | cons command commands ih => exact ih (alike.applyCommand command)

theorem feed (alike : Alike mac monitor monitor') (bytes : Bytes) :
    Alike mac (monitor.feed bytes).1 (monitor'.feed bytes).1 := by
  rw [feed_eq, feed_eq, alike.reader]
  exact { alike.obey _ with reader := rfl }

theorem purge (alike : Alike mac monitor monitor') (now : Nanoseconds) :
    Alike mac (monitor.purge now) (monitor'.purge now) :=
  { alike with
    readings := by
      rw [Monitor.purge, Monitor.purge, SignalWindow.get?_purge, SignalWindow.get?_purge,
        alike.readings, alike.length] }

theorem decode (alike : Alike mac monitor monitor') :
    monitor.decode received = monitor'.decode received := by
  rw [Monitor.decode, Monitor.decode, alike.layouts]

/-- Both monitors count the same readings when they add one. -/
theorem add (alike : Alike mac monitor monitor') (now : Nanoseconds) (rssi : Int16) :
    (monitor.signal.add now mac.text rssi).2 = (monitor'.signal.add now mac.text rssi).2 := by
  rw [SignalWindow.add, SignalWindow.add, alike.readings, alike.length]

theorem process (alike : Alike mac monitor monitor') (now : Nanoseconds)
    (own : received.mac = mac) :
    (monitor.process now received).2 = (monitor'.process now received).2 ∧
      Alike mac (monitor.process now received).1 (monitor'.process now received).1 := by
  subst own
  unfold Monitor.process
  rw [alike.config, alike.decode]
  split
  · exact ⟨rfl, alike⟩
  · split
    · exact ⟨rfl, alike⟩
    · refine ⟨?_, alike.layouts, rfl, alike.reader, alike.length, ?_⟩
      · simp only [alike.add]
      · simp [SignalWindow.get?_add, alike.add]

/-- An advertisement of another device leaves the readings of this one as they are. -/
theorem process_other (alike : Alike mac monitor monitor') (now : Nanoseconds)
    (other : received.mac ≠ mac) : Alike mac (monitor.process now received).1 monitor' := by
  have apart : mac.text ≠ received.mac.text := (MacAddress.text_injective.ne other).symm
  unfold Monitor.process
  split
  · exact alike
  · split
    · exact alike
    · refine ⟨alike.layouts, alike.config, alike.reader, alike.length, ?_⟩
      simp only [SignalWindow.get?_add, if_neg apart, alike.readings]

end Alike

namespace Session

/-- The advertisement of an action, and what the monitor returns for it. -/
def answer? (session : Session) : Action → Option (Received × Option Beacon)
  | .process received => some (received, (session.monitor.process session.now received).2)
  | _ => none

/-- The advertisements of a run, each with what the monitor returns for it. -/
def answers (session : Session) : List Action → List (Received × Option Beacon)
  | [] => []
  | action :: actions => (session.answer? action).toList ++ (session.step action).answers actions

variable {session session' : Session} {mac : MacAddress} {action : Action}

/-- The sessions are at the same time, and their monitors agree about the device. -/
structure Alike (mac : MacAddress) (session session' : Session) : Prop where
  now : session.now = session'.now
  monitor : Monitor.Alike mac session.monitor session'.monitor

theorem Alike.spared (alike : Alike mac session session') (spares : action.spares mac) :
    session.answer? action = session'.answer? action ∧
      Alike mac (session.step action) (session'.step action) := by
  obtain ⟨now, monitor, reports⟩ := session
  obtain ⟨now', monitor', reports'⟩ := session'
  obtain ⟨rfl, alike⟩ := alike
  cases action with
  | process received =>
    obtain ⟨answer, after⟩ := alike.process now (of_decide_eq_true spares)
    exact ⟨by rw [answer?, answer?, answer], rfl, after⟩
  | purge => exact ⟨rfl, rfl, alike.purge now⟩
  | report => exact ⟨rfl, rfl, { alike with }⟩
  | setConfig config => exact ⟨rfl, rfl, alike.setConfig config⟩
  | command command => exact ⟨rfl, rfl, alike.applyCommand command⟩
  | feed bytes => exact ⟨rfl, rfl, alike.feed bytes⟩
  | advance duration => exact ⟨rfl, rfl, alike⟩

theorem Alike.left_out (alike : Alike mac session session') (left : ¬ action.spares mac) :
    (∃ received beacon, session.answer? action = some (received, beacon) ∧ received.mac ≠ mac) ∧
      Alike mac (session.step action) session' := by
  cases action with
  | process received =>
    have other : received.mac ≠ mac := fun own => left (decide_eq_true own)
    exact ⟨⟨received, _, rfl, other⟩, alike.now, alike.monitor.process_other session.now other⟩
  | _ => exact absurd rfl left

theorem Alike.answers_only (alike : Alike mac session session') (actions : List Action) :
    (session.answers actions).filter (·.1.mac = mac) = session'.answers (only mac actions) := by
  -- The runs go on in step where an action is in both, and the first run alone where it is not; the
  -- answer to what is left out is not one to the device.
  induction actions generalizing session session' with
  | nil => rfl
  | cons action actions ih =>
    rw [answers, List.filter_append]
    by_cases spares : action.spares mac
    · obtain ⟨answer, after⟩ := alike.spared spares
      rw [only, List.filter_cons_of_pos spares, answers, ← only, ih after, answer]
      congr 1
      cases action with
      | process received => exact List.filter_cons_of_pos spares
      | _ => rfl
    · obtain ⟨⟨received, beacon, answer, other⟩, after⟩ := alike.left_out spares
      rw [only, List.filter_cons_of_neg spares, ← only, ih after, answer, Option.toList_some,
        List.filter_cons_of_neg (by simpa using other)]
      rfl

/-- From any state of a monitor, what is returned for each advertisement of a device, beacon and
mean alike, is what is returned for it if no other device ever advertises. No two devices share
their readings. -/
theorem answers_only_eq_filter (session : Session) (mac : MacAddress) (actions : List Action) :
    session.answers (only mac actions) = (session.answers actions).filter (·.1.mac = mac) ∧
      Function.Injective MacAddress.text :=
  ⟨(Alike.answers_only ⟨rfl, rfl, rfl, rfl, rfl, rfl⟩ actions).symm, MacAddress.text_injective⟩

end Session

end Monitor

end Proximity
