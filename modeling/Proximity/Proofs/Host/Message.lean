import Proximity.Host.Message
import Proximity.Proofs.Host.Json.Writer
import Proximity.Proofs.Text.Utf8

/-! A line tells its message. What a message says is found by name among its members, and the
members are told by the text of the line. -/

namespace Proximity.Message

/-- Every part of a report is found among its members, and one that is missing there is missing in
the report. -/
theorem lookup_members_beacon (r : BeaconReport) :
    let find name := (Message.beacon r).members.lookup name
    find "ids" = some (.texts r.ids) ∧ find "mac" = r.mac.map .text ∧
      find "name" = r.name.map .text ∧ find "rssi" = some (.integer r.rssi.toInt) ∧
      find "avg" = r.average.map (.integer ·.toInt) ∧ find "tx" = some (.integer r.txPower.toInt) ∧
      find "mfr" = some (.integer r.manufacturer.toNat) ∧ find "vendor" = r.vendor.map .text ∧
      find "code" = some (.integer r.typeCode.toNat) ∧
      find "ts" = some (.integer r.time.toNat) := by
  obtain ⟨ids, mac, name, rssi, average, txPower, manufacturer, vendor, typeCode, time⟩ := r
  cases mac <;> cases name <;> cases average <;> cases vendor <;>
    simp [members, optional, List.lookup_cons]

theorem report_eq_of_members {r r' : BeaconReport}
    (same : (Message.beacon r).members = (Message.beacon r').members) : r = r' := by
  obtain ⟨ids, mac, name, rssi, average, txPower, manufacturer, vendor, typeCode, time⟩ :=
    lookup_members_beacon r
  obtain ⟨ids', mac', name', rssi', average', txPower', manufacturer', vendor', typeCode',
    time'⟩ := lookup_members_beacon r'
  rw [same] at ids mac name rssi average txPower manufacturer vendor typeCode time
  have text : Function.Injective Json.Value.text := fun _ _ => Json.Value.text.inj
  have integer : Function.Injective fun n : Int16 => Json.Value.integer n.toInt :=
    fun _ _ equal => Int16.toInt_inj.mp (Json.Value.integer.inj equal)
  cases r
  cases r'
  simp only [BeaconReport.mk.injEq]
  refine ⟨?_, Option.map_injective text (mac.symm.trans mac'),
    Option.map_injective text (name.symm.trans name'), ?_,
    Option.map_injective integer (average.symm.trans average'), ?_, ?_,
    Option.map_injective text (vendor.symm.trans vendor'), ?_, ?_⟩
  · simpa using ids.symm.trans ids'
  · simpa [Int16.toInt_inj] using rssi.symm.trans rssi'
  · simpa [Int8.toInt_inj] using txPower.symm.trans txPower'
  · simpa [Int.natCast_inj, UInt16.toNat_inj] using manufacturer.symm.trans manufacturer'
  · simpa [Int.natCast_inj, UInt64.toNat_inj] using typeCode.symm.trans typeCode'
  · simpa [Int.natCast_inj, UInt32.toNat_inj] using time.symm.trans time'

/-- Messages of two kinds differ in their first member, and messages of one kind in some other. -/
theorem members_injective : Function.Injective members := by
  intro message message' same
  cases message with
  | beacon r =>
    cases message' with
    | beacon r' => rw [report_eq_of_members same]
    | _ => simp [members] at same
  | enter region time =>
    cases message' with
    | enter region' time' => simpa [members, Int.natCast_inj, UInt32.toNat_inj] using same
    | _ => simp [members] at same
  | exit region time =>
    cases message' with
    | exit region' time' => simpa [members, Int.natCast_inj, UInt32.toNat_inj] using same
    | _ => simp [members] at same
  | status scanning uptime visible regions version =>
    cases message' with
    | status scanning' uptime' visible' regions' version' =>
      simpa [members, Int.natCast_inj, UInt32.toNat_inj, UInt16.toNat_inj] using same
    | _ => simp [members] at same

theorem json_injective : Function.Injective json :=
  fun _ _ same => members_injective (Json.write_injective (Utf8.write_injective same))

/-- The line of a message is its text and the end of the line. -/
theorem line?_eq (most : Nat) (message : Message) :
    line? most message =
      if message.json.length + 1 ≤ most then some (message.json ++ [10]) else none := by
  have line : Utf8.write (Json.write message.members ++ ['\n']) = message.json ++ [10] :=
    Utf8.write_append _ _
  simp only [line?, line, List.length_append, List.length_singleton]

theorem line?_eq_some_iff {most : Nat} {message : Message} {line : Bytes} :
    line? most message = some line ↔
      message.json.length + 1 ≤ most ∧ message.json ++ [10] = line := by
  rw [line?_eq]
  by_cases room : message.json.length + 1 ≤ most <;> simp [room]

/-- A line is the line of one message only, however much room each had. -/
theorem eq_of_line? {message message' : Message} {most most' : Nat} {line : Bytes}
    (sent : line? most message = some line) (sent' : line? most' message' = some line) :
    message = message' := by
  obtain ⟨-, text⟩ := line?_eq_some_iff.mp sent
  obtain ⟨-, text'⟩ := line?_eq_some_iff.mp sent'
  exact json_injective (List.append_cancel_right (text.trans text'.symm))

/-- A region whose name looks like the rest of a message. -/
def imitation : Message := .enter "\",\"ts\":7\x7d\n" 5

theorem eq_of_line?_imitation :
    let line := Utf8.write
      "\x7b\"type\":\"enter\",\"region\":\"\\\",\\\"ts\\\":7\x7d\\n\",\"ts\":5\x7d\n".toList
    line? 64 imitation = some line ∧ line? 512 (.enter "\",\"ts\":7\x7d\n" 5) = some line ∧
      imitation = .enter "\",\"ts\":7\x7d\n" 5 := by
  intro line
  have sent : line? 64 imitation = some line := by decide +kernel
  have sent' : line? 512 (.enter "\",\"ts\":7\x7d\n" 5) = some line := by decide +kernel
  exact ⟨sent, sent', eq_of_line? sent sent'⟩

end Proximity.Message
