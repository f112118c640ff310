import Proximity.Host.Message

/-! Lines out of a stream of bytes. -/

namespace Proximity

/-- The bytes of a line that has not ended. A line that becomes too long is dropped whole. -/
structure LineReader where
  pending : Bytes := []
  overflowed : Bool := false
deriving DecidableEq

namespace LineReader

def isEnd (b : UInt8) : Bool := b = 10 || b = 13

/-- The reader after one more byte, and the line that the byte ends if it is not empty. -/
def feed (reader : LineReader) (b : UInt8) : LineReader × Option Bytes :=
  if isEnd b then
    ({}, if reader.pending.isEmpty || reader.overflowed then none else some reader.pending)
  else if reader.overflowed then (reader, none)
  else if reader.pending.length < Message.maxLength then
    ({ reader with pending := reader.pending ++ [b] }, none)
  else ({ reader with overflowed := true }, none)

/-- The reader after more bytes, and the lines that end in them. -/
def feedAll (reader : LineReader) : Bytes → LineReader × List Bytes
  | [] => (reader, [])
  | b :: bytes =>
    let (reader, line) := reader.feed b
    let (reader, lines) := feedAll reader bytes
    (reader, line.toList ++ lines)

end LineReader

end Proximity
