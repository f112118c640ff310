import Proximity.Monitor

/-! Reports as a stream of lines. All messages of a report are written into one buffer, and each
line is passed on before the next message takes its place. -/

namespace Proximity

/-- A row of bytes that has a fixed length. -/
structure Buffer (size : Nat) where
  bytes : Bytes
  length_bytes : bytes.length = size

namespace Buffer

variable {size : Nat}

def zeros (size : Nat) : Buffer size := ⟨List.replicate size 0, List.length_replicate⟩

/-- The buffer with `text` in place of the bytes from offset `start` on. -/
def put (buffer : Buffer size) (start : Nat) (text : Bytes) (fits : start + text.length ≤ size) :
    Buffer size where
  bytes := buffer.bytes.overwrite start text
  length_bytes := by rw [Bytes.length_overwrite (by rwa [buffer.length_bytes]), buffer.length_bytes]

/-- The first bytes of the buffer. -/
def front (buffer : Buffer size) (length : Nat) : Bytes := buffer.bytes.take length

end Buffer

/-- Writes a message and the end of its line into a buffer, and counts the bytes of the line if it
fits. Where not even the text fits, `torn` tells what the attempt leaves in the buffer. -/
def Message.writeInto {size : Nat} (torn : Message → Buffer size → Buffer size) (message : Message)
    (buffer : Buffer size) : Buffer size × Option Nat :=
  let length := message.json.length
  if fits : length ≤ size then
    let written := buffer.put 0 message.json (by omega)
    if room : length + 1 ≤ size then (written.put length [10] room, some (length + 1))
    else (written, none)
  else (torn message buffer, none)

/-- The buffer that lines are written into, what the receiver of the lines has become, and the
number of lines that it was given. -/
structure Stream (σ : Type) where
  buffer : Buffer Message.maxLength
  receiver : σ
  count : Nat

/-- The stream after a message, whose line is passed on if the buffer has room for it. -/
def Stream.send {σ : Type}
    (torn : Message → Buffer Message.maxLength → Buffer Message.maxLength) (emit : σ → Bytes → σ)
    (stream : Stream σ) (message : Message) : Stream σ :=
  match message.writeInto torn stream.buffer with
  | (buffer, some length) =>
    { buffer
      receiver := emit stream.receiver (buffer.front length)
      count := stream.count + 1 }
  | (buffer, none) => { stream with buffer }

/-- Passes on the lines of a report: arrivals, departures and visible beacons, leaving out a beacon
with identifiers for which a message has no room. Gives what the receiver has become and the number
of lines. -/
def Report.stream {σ : Type}
    (torn : Message → Buffer Message.maxLength → Buffer Message.maxLength) (emit : σ → Bytes → σ)
    (receiver : σ) (report : Report) (time : UInt32) : σ × Nat :=
  let send := Stream.send torn emit
  let start : Stream σ := { buffer := .zeros _, receiver, count := 0 }
  let entered := report.entered.foldl (fun s region => send s (.enter region.name time)) start
  let exited := report.exited.foldl (fun s region => send s (.exit region.name time)) entered
  let visible := report.visible.foldl (fun s beacon =>
    match BeaconReport.ofBeacon? beacon time with
    | some sighting => send s (.beacon sighting)
    | none => s) exited
  (visible.receiver, visible.count)

end Proximity
