import Proximity.Host.Stream
import Proximity.Proofs.Host.LineReader
import Proximity.Proofs.Host.Message

/-! The lines of a report as the host receives them. What earlier messages leave in the buffer never
shows, and the host reads the lines that were written, whatever the names in them are. -/

namespace Proximity

section Writing

variable {size : Nat} {torn : Message → Buffer size → Buffer size} {message : Message}
  {buffer : Buffer size}

theorem Buffer.front_put {start stop : Nat} {text : Bytes} (fits : start + text.length ≤ size)
    (ends : stop = start + text.length) :
    (buffer.put start text fits).front stop = buffer.front start ++ text := by
  have taken : (buffer.bytes.take start).length = start := by
    rw [List.length_take, buffer.length_bytes]
    omega
  have front : stop = (buffer.bytes.take start ++ text).length := by
    rw [List.length_append, taken, ends]
  simp only [Buffer.front, put, Bytes.overwrite]
  rw [front, List.take_left]

/-- A message takes the same line whatever was in the buffer. -/
theorem Message.front_writeInto :
    (message.writeInto torn buffer).2.map (message.writeInto torn buffer).1.front =
      line? size message := by
  rw [line?_eq, writeInto]
  by_cases room : message.json.length + 1 ≤ size
  · have fits : message.json.length ≤ size := by omega
    simp only [dif_pos fits, dif_pos room, if_pos room, Option.map_some]
    rw [@Buffer.front_put _ _ _ (message.json.length + 1) _ room rfl,
      Buffer.front_put _ (Nat.zero_add _).symm]
    rfl
  · simp only [if_neg room]
    by_cases fits : message.json.length ≤ size
    · simp only [dif_pos fits, dif_neg room, Option.map_none]
    · simp only [dif_neg fits, Option.map_none]

end Writing

section Sending

variable {σ : Type} {torn : Message → Buffer Message.maxLength → Buffer Message.maxLength}
  {emit : σ → Bytes → σ} {stream : Stream σ} {messages : List Message} {message : Message}

/-- What a stream does that its receiver can tell: the line of a message is passed on, if there is
one, and counted. -/
theorem Stream.send_eq :
    let line := message.line? Message.maxLength
    let sent := stream.send torn emit message
    sent.receiver = line.toList.foldl emit stream.receiver ∧
      sent.count = stream.count + line.toList.length := by
  have front := @Message.front_writeInto _ torn message stream.buffer
  intro line sent
  simp only [sent, line, ← front, Stream.send]
  rcases message.writeInto torn stream.buffer with ⟨buffer, _ | length⟩ <;> simp

theorem Stream.foldl_send :
    let lines := messages.filterMap (Message.line? Message.maxLength)
    let sent := messages.foldl (Stream.send torn emit) stream
    sent.receiver = lines.foldl emit stream.receiver ∧
      sent.count = stream.count + lines.length := by
  induction messages generalizing stream with
  | nil => exact ⟨rfl, rfl⟩
  | cons message messages ih =>
    obtain ⟨receiver, count⟩ := @Stream.send_eq σ torn emit stream message
    obtain ⟨later, counted⟩ := @ih (stream.send torn emit message)
    have split : (message :: messages).filterMap (Message.line? Message.maxLength) =
        (message.line? Message.maxLength).toList ++
          messages.filterMap (Message.line? Message.maxLength) := by
      rw [List.filterMap_cons]
      cases message.line? Message.maxLength <;> rfl
    simp only [split, List.foldl_cons, List.foldl_append, List.length_append] at *
    rw [later, counted, receiver, count, Nat.add_assoc]
    exact ⟨rfl, rfl⟩

theorem Report.stream_eq (report : Report) (time : UInt32) (receiver : σ) :
    report.stream torn emit receiver time =
      ((report.lines time).foldl emit receiver, (report.lines time).length) := by
  -- The three loops over the report are one loop over its messages.
  have joined : report.stream torn emit receiver time =
      let sent := (report.messages time).foldl (Stream.send torn emit) ⟨.zeros _, receiver, 0⟩
      (sent.receiver, sent.count) := by
    simp only [stream, messages, List.foldl_append, List.foldl_map, List.foldl_filterMap]
    congr <;>
      funext s beacon <;> cases BeaconReport.ofBeacon? beacon time <;> rfl
  obtain ⟨sent, counted⟩ := @Stream.foldl_send σ torn emit ⟨.zeros _, receiver, 0⟩
    (report.messages time)
  rw [joined]
  simp only [sent, counted, lines, Nat.zero_add]

/-- The text of a message is a line, since the only control characters in a message are escaped. -/
theorem Message.fitsLine_json (short : message.json.length ≤ maxLength) :
    LineReader.FitsLine message.json where
  nonempty := by
    have brace : Utf8.write ['\x7b'] ++ Utf8.write _ = message.json :=
      (Utf8.write_append ['\x7b'] _).symm
    rw [← brace]
    simp [Utf8.write, String.utf8EncodeChar]
  unbroken b member isEnd := by
    have := Utf8.le_of_mem_write (Json.printable_write message.members) member
    simp only [LineReader.isEnd, Bool.or_eq_true, decide_eq_true_eq] at isEnd
    rcases isEnd with rfl | rfl <;> exact absurd this (by decide)
  length_le := short

/-- The lines of a report are the texts of its messages that leave room for the end of a line, in
the order of the messages. Each is passed on once and counted, and is what its message makes of a
fresh buffer. A host that reads the lines one after another reads these texts. -/
theorem Report.stream_framed (torn : Message → Buffer Message.maxLength → Buffer Message.maxLength)
    (emit : σ → Bytes → σ) (receiver : σ) (report : Report) (time : UInt32) :
    let texts := ((report.messages time).map Message.json).filter (·.length + 1 ≤ Message.maxLength)
    let lines := texts.map (· ++ [10])
    report.stream torn emit receiver time = (lines.foldl emit receiver, lines.length) ∧
      lines = (report.messages time).filterMap (fun message =>
        let (buffer, length) := message.writeInto torn (.zeros Message.maxLength)
        length.map buffer.front) ∧
      ({} : LineReader).feedAll lines.flatten = ({}, texts) := by
  intro texts lines
  have written : lines = report.lines time := by
    simp only [lines, texts, Report.lines]
    rw [List.filter_map, List.map_map, ← List.filterMap_eq_map, List.filterMap_filter]
    refine congrArg (List.filterMap · _) (funext fun message => ?_)
    rw [Message.line?_eq]
    simp
  refine ⟨?_, ?_, LineReader.feedAll_lines fun text member => ?_⟩
  · rw [written, stream_eq]
  · rw [written, Report.lines]
    exact congrArg (List.filterMap · _) (funext fun message => Message.front_writeInto.symm)
  · obtain ⟨inMessages, short⟩ := List.mem_filter.mp member
    obtain ⟨message, -, rfl⟩ := List.mem_map.mp inMessages
    have := of_decide_eq_true short
    exact Message.fitsLine_json (by omega)

end Sending

end Proximity
