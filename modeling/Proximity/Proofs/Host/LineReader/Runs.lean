import Proximity.Proofs.Host.Stream
import Mathlib.Data.List.DropRight

/-! Where the lines of a stream end. What a new reader holds is told by the bytes since the last
line end alone, so that each line end gives the run of bytes before it, and a run that is too long
does nothing to the next. A reader that writes into a buffer of fixed size does the same, whatever
earlier lines have left in the buffer. -/

namespace Proximity

namespace LineReader

/-- The bytes since the last line end. -/
def openRun (front : Bytes) : Bytes := front.rtakeWhile (!isEnd ·)

/-- Bytes without line ends stand at the end of `front`, behind a line end or nothing. -/
structure EndsIn (front run : Bytes) : Prop where
  unbroken : ∀ b ∈ run, ¬ isEnd b
  bounded : ∃ before, front = before ++ run ∧ ∀ b ∈ before.getLast?, isEnd b

/-- A run is a line: it is neither empty nor too long. -/
def IsLine (run : Bytes) : Prop := 1 ≤ run.length ∧ run.length ≤ Message.maxLength

instance (run : Bytes) : Decidable (IsLine run) := inferInstanceAs (Decidable (_ ∧ _))

variable {front run stream : Bytes} {b : UInt8}

theorem openRun_concat :
    openRun (front ++ [b]) = if isEnd b then [] else openRun front ++ [b] := by
  rw [openRun, List.rtakeWhile_concat]
  cases isEnd b <;> rfl

theorem endsIn_openRun (front : Bytes) : EndsIn front (openRun front) where
  unbroken b member := by simpa using List.mem_rtakeWhile_imp member
  bounded := by
    refine ⟨front.rdropWhile (!isEnd ·), List.rdropWhile_append_rtakeWhile.symm, ?_⟩
    intro b last
    obtain ⟨before, ends⟩ := List.getLast?_eq_some_iff.mp last
    have nonempty : front.rdropWhile (!isEnd ·) ≠ [] := by simp [ends]
    have := List.rdropWhile_last_not (!isEnd ·) front nonempty
    simpa [ends] using this

/-- There is one such run, however a stream ends. -/
theorem endsIn_iff : EndsIn front run ↔ run = openRun front := by
  constructor
  · rintro ⟨unbroken, before, rfl, bounded⟩
    induction run using List.reverseRecOn with
    | nil =>
      rw [List.append_nil]
      cases before using List.reverseRecOn with
      | nil => rfl
      | append_singleton before b => rw [openRun_concat, if_pos (bounded b (by simp))]
    | append_singleton run b ih =>
      have other : ¬ isEnd b := unbroken b (by simp)
      rw [← List.append_assoc, openRun_concat, if_neg other,
        ← ih fun c member => unbroken c (List.mem_append_left _ member)]
  · rintro rfl
    exact endsIn_openRun front

theorem feedAll_concat (reader : LineReader) (front : Bytes) (b : UInt8) :
    reader.feedAll (front ++ [b]) =
      (((reader.feedAll front).1.feed b).1,
        (reader.feedAll front).2 ++ ((reader.feedAll front).1.feed b).2.toList) := by
  simp [feedAll_append, feedAll]

/-- A new reader holds as much of the run that has not ended as its buffer has room for. -/
theorem feedAll_fst (front : Bytes) :
    (({} : LineReader).feedAll front).1 =
      { pending := (openRun front).take Message.maxLength
        overflowed := Message.maxLength < (openRun front).length } := by
  induction front using List.reverseRecOn with
  | nil => rfl
  | append_singleton front b ih =>
    rw [feedAll_concat, ih, openRun_concat, feed]
    by_cases ends : isEnd b
    · simp [ends]
    · simp only [ends, Bool.false_eq_true, if_false, decide_eq_true_eq, List.length_take,
        List.length_append, List.length_singleton]
      -- The run has overflowed before, or there is room for one more byte, or it overflows now.
      rcases Nat.lt_trichotomy (openRun front).length Message.maxLength with room | full | long
      · rw [if_neg (by omega), if_pos (by omega), List.take_of_length_le (by omega),
          List.take_of_length_le (by simp; omega)]
        simp only [LineReader.mk.injEq, true_and, decide_eq_decide]
        omega
      · rw [if_neg (by omega), if_neg (by omega), List.take_append_of_le_length (by omega)]
        simp only [LineReader.mk.injEq, true_and]
        exact (decide_eq_true (by omega)).symm
      · rw [if_pos long, List.take_append_of_le_length (by omega)]
        simp only [LineReader.mk.injEq, true_and, decide_eq_decide]
        omega

/-- A line end gives the run before it, if that is a line, and no other byte gives anything. -/
theorem feed_snd (front : Bytes) (b : UInt8) :
    ((({} : LineReader).feedAll front).1.feed b).2 =
      if isEnd b ∧ IsLine (openRun front) then some (openRun front) else none := by
  rw [feedAll_fst, feed]
  by_cases ends : isEnd b
  · simp only [ends, if_true, true_and, IsLine]
    by_cases fits : (openRun front).length ≤ Message.maxLength
    · rw [List.take_of_length_le fits]
      cases run : openRun front with
      | nil => rfl
      | cons c rest =>
        have short : rest.length + 1 ≤ Message.maxLength := by rwa [run] at fits
        simp [short, Nat.not_lt.mpr short]
    · simp [fits, Nat.lt_of_not_le fits]
  · simp only [ends, Bool.false_eq_true, if_false, false_and]
    split
    · rfl
    · split <;> rfl

theorem linesIn_new (stream : Bytes) :
    ({} : LineReader).linesIn stream = (stream.splitOnP isEnd).dropLast.filter (IsLine ·) := by
  have whole : (stream.splitOnP isEnd).modifyHead (([] : Bytes) ++ ·) = stream.splitOnP isEnd := by
    cases stream.splitOnP isEnd <;> rfl
  simp only [linesIn, whole, Bool.false_eq_true, if_false]
  rfl

end LineReader

/-- A reader that writes the bytes of a line that has not ended into a buffer, over those of earlier
lines. -/
structure LineBuffer where
  buffer : Buffer Message.maxLength := .zeros _
  /-- The number of bytes that are held. -/
  pos : Nat := 0
  overflowed : Bool := false

namespace LineBuffer

/-- The reader after one more byte, and the line that the byte ends if it is not empty. -/
def feed (reader : LineBuffer) (b : UInt8) : LineBuffer × Option Bytes :=
  if LineReader.isEnd b then
    ({ reader with pos := 0, overflowed := false },
      if 0 < reader.pos ∧ ¬ reader.overflowed then some (reader.buffer.front reader.pos) else none)
  else if reader.overflowed then (reader, none)
  else if room : reader.pos + 1 ≤ Message.maxLength then
    ({ reader with buffer := reader.buffer.put reader.pos [b] room, pos := reader.pos + 1 }, none)
  else ({ reader with overflowed := true }, none)

/-- The reader after more bytes, and the lines that end in them. -/
def feedAll (reader : LineBuffer) : Bytes → LineBuffer × List Bytes
  | [] => (reader, [])
  | b :: bytes =>
    let (reader, line) := reader.feed b
    let (reader, lines) := feedAll reader bytes
    (reader, line.toList ++ lines)

/-- The front of the buffer is what the other reader holds. -/
structure Holds (buffered : LineBuffer) (reader : LineReader) : Prop where
  pos : buffered.pos = reader.pending.length
  front : buffered.buffer.front buffered.pos = reader.pending
  overflowed : buffered.overflowed = reader.overflowed

variable {buffered : LineBuffer} {reader : LineReader}

theorem holds_new : Holds {} {} := ⟨rfl, rfl, rfl⟩

theorem Holds.feed (holds : Holds buffered reader) (b : UInt8) :
    (buffered.feed b).2 = (reader.feed b).2 ∧ Holds (buffered.feed b).1 (reader.feed b).1 := by
  obtain ⟨buffer, pos, overflowed⟩ := buffered
  obtain ⟨pending, overflowed'⟩ := reader
  obtain ⟨length, front, same⟩ := holds
  dsimp only at length front same
  subst length same
  unfold LineBuffer.feed LineReader.feed
  split
  · refine ⟨?_, holds_new.pos, rfl, rfl⟩
    simp only [front]
    cases pending <;> cases overflowed <;> rfl
  split
  · exact ⟨rfl, rfl, front, rfl⟩
  simp only
  by_cases room : pending.length < Message.maxLength
  · rw [dif_pos (show pending.length + 1 ≤ Message.maxLength from room), if_pos room]
    refine ⟨rfl, by simp, ?_, rfl⟩
    exact (@Buffer.front_put _ buffer pending.length _ [b] room rfl).trans (by rw [front])
  · rw [dif_neg (show ¬ pending.length + 1 ≤ Message.maxLength from room), if_neg room]
    exact ⟨rfl, rfl, front, rfl⟩

theorem Holds.feedAll (holds : Holds buffered reader) (stream : Bytes) :
    (buffered.feedAll stream).2 = (reader.feedAll stream).2 ∧
      Holds (buffered.feedAll stream).1 (reader.feedAll stream).1 := by
  induction stream generalizing buffered reader with
  | nil => exact ⟨rfl, holds⟩
  | cons b stream ih =>
    obtain ⟨line, next⟩ := holds.feed b
    obtain ⟨lines, last⟩ := ih next
    refine ⟨?_, last⟩
    simp only [LineBuffer.feedAll, LineReader.feedAll, line, lines]

end LineBuffer

/-- A new reader finds exactly the lines of any stream: the runs of other bytes between line ends,
in order and as they are, unless they are empty or too long. Each is given on the line end behind
it, and after any line end the reader is as new, even if the run was too long. With a buffer of
fixed size, at no time is more held than there is room for, the buffer is full when a line is too
long, and nothing that earlier lines left in it shows. -/
theorem LineReader.finds_runs (stream : Bytes) :
    (({} : LineReader).feedAll stream).2 = (stream.splitOnP isEnd).dropLast.filter (IsLine ·) ∧
      (∀ front b back, stream = front ++ b :: back →
        let reader := (({} : LineReader).feedAll front).1
        (∀ line, (reader.feed b).2 = some line ↔ isEnd b ∧ EndsIn front line ∧ IsLine line) ∧
          (isEnd b → (reader.feed b).1 = {})) ∧
      (({} : LineBuffer).feedAll stream).2 = (({} : LineReader).feedAll stream).2 ∧
      ∀ front, front <+: stream →
        let held := (({} : LineBuffer).feedAll front).1
        held.Holds (({} : LineReader).feedAll front).1 ∧ held.pos ≤ Message.maxLength ∧
          (held.overflowed → held.pos = Message.maxLength) := by
  have new : ({} : LineReader).WithinBuffer := ⟨Nat.zero_le _, nofun⟩
  refine ⟨?_, ?_, (LineBuffer.holds_new.feedAll stream).1, ?_⟩
  · rw [feedAll_eq_linesIn new, linesIn_new]
  · rintro front b back -
    refine ⟨fun line => ?_, fun ends => by rw [feed, if_pos ends]⟩
    rw [feed_snd, Option.ite_none_right_eq_some, Option.some_inj, endsIn_iff]
    constructor
    · rintro ⟨⟨ends, isLine⟩, rfl⟩
      exact ⟨ends, rfl, isLine⟩
    · rintro ⟨ends, rfl, isLine⟩
      exact ⟨⟨ends, isLine⟩, rfl⟩
  · rintro front -
    have holds := (LineBuffer.holds_new.feedAll front).2
    have within : (({} : LineReader).feedAll front).1.WithinBuffer := new.feedAll
    refine ⟨holds, ?_, ?_⟩
    · rw [holds.pos]
      exact within.length_le
    · rw [holds.pos, holds.overflowed]
      exact within.full

end Proximity
