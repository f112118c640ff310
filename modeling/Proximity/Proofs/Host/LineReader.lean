import Proximity.Host.LineReader

/-! What a line reader makes of the lines that are written to it, and of any other stream. -/

namespace Proximity.LineReader

/-- A line with this text is read whole. -/
structure FitsLine (text : Bytes) : Prop where
  nonempty : text ≠ []
  unbroken : ∀ b ∈ text, ¬ isEnd b
  length_le : text.length ≤ Message.maxLength

variable {reader : LineReader} {text : Bytes}

theorem feedAll_append (reader : LineReader) (front back : Bytes) :
    reader.feedAll (front ++ back) =
      (((reader.feedAll front).1.feedAll back).1,
        (reader.feedAll front).2 ++ ((reader.feedAll front).1.feedAll back).2) := by
  induction front generalizing reader with
  | nil => rfl
  | cons b front ih => simp only [List.cons_append, feedAll, ih, List.append_assoc]

/-- Bytes of a line that has not ended are kept as long as there is room for them. -/
theorem feedAll_unbroken (unbroken : ∀ b ∈ text, ¬ isEnd b) (whole : ¬ reader.overflowed)
    (fits : reader.pending.length + text.length ≤ Message.maxLength) :
    reader.feedAll text = ({ reader with pending := reader.pending ++ text }, []) := by
  induction text generalizing reader with
  | nil => simp [feedAll]
  | cons b text ih =>
    rw [List.length_cons] at fits
    have kept : reader.feed b = ({ reader with pending := reader.pending ++ [b] }, none) := by
      rw [feed, if_neg (unbroken b List.mem_cons_self), if_neg whole, if_pos (by omega)]
    have later := @ih { reader with pending := reader.pending ++ [b] }
      (fun other member => unbroken other (List.mem_cons_of_mem _ member)) whole
      (by simp only [List.length_append, List.length_singleton]; omega)
    simp [feedAll, kept, later]

theorem feedAll_line (fits : FitsLine text) :
    ({} : LineReader).feedAll (text ++ [10]) = ({}, [text]) := by
  have kept := @feedAll_unbroken {} text fits.unbroken (by simp) (by simpa using fits.length_le)
  have ended : ({ pending := text } : LineReader).feed 10 = ({}, some text) := by
    simp [feed, isEnd, fits.nonempty]
  rw [feedAll_append, kept]
  simp [feedAll, ended]

/-- Lines are read as they were written, none lost and none joined with another. -/
theorem feedAll_lines {texts : List Bytes} (fit : ∀ text ∈ texts, FitsLine text) :
    ({} : LineReader).feedAll (texts.map (· ++ [10])).flatten = ({}, texts) := by
  induction texts with
  | nil => rfl
  | cons text texts ih =>
    rw [List.map_cons, List.flatten_cons, feedAll_append,
      feedAll_line (fit text List.mem_cons_self),
      ih fun other member => fit other (List.mem_cons_of_mem _ member)]
    rfl

/-- What is held fits the buffer, which is full when the line is too long. -/
structure WithinBuffer (reader : LineReader) : Prop where
  length_le : reader.pending.length ≤ Message.maxLength
  full : reader.overflowed → reader.pending.length = Message.maxLength

/-- The lines that end in a stream: the runs of other bytes between the line ends, but for those
that are empty or too long. The first run continues what is held, and is too long if that is. -/
def linesIn (reader : LineReader) (stream : Bytes) : List Bytes :=
  let ended := ((stream.splitOnP isEnd).modifyHead (reader.pending ++ ·)).dropLast
  (if reader.overflowed then ended.tail else ended).filter fun line =>
    1 ≤ line.length ∧ line.length ≤ Message.maxLength

variable {b : UInt8} {stream : Bytes}

theorem WithinBuffer.feed (within : reader.WithinBuffer) : (reader.feed b).1.WithinBuffer := by
  unfold LineReader.feed
  split
  · exact ⟨Nat.zero_le _, nofun⟩
  split
  · exact within
  rename_i whole
  split
  · rename_i room
    exact ⟨by simpa using Nat.succ_le_of_lt room, fun overflowed => absurd overflowed whole⟩
  · rename_i noRoom
    exact ⟨within.length_le, fun _ => Nat.le_antisymm within.length_le (Nat.le_of_not_lt noRoom)⟩

theorem WithinBuffer.feedAll (within : reader.WithinBuffer) :
    (reader.feedAll stream).1.WithinBuffer := by
  induction stream generalizing reader with
  | nil => exact within
  | cons b stream ih => exact ih within.feed

theorem linesIn_nil : reader.linesIn [] = [] := by
  simp [linesIn]

/-- A line end makes a line of what is held, and the rest is as for a new reader. -/
theorem linesIn_cons_of_isEnd (within : reader.WithinBuffer) (ends : isEnd b) :
    reader.linesIn (b :: stream) =
      (reader.feed b).2.toList ++ ({} : LineReader).linesIn stream := by
  obtain ⟨run, runs, split⟩ := List.exists_cons_of_ne_nil (List.splitOnP_ne_nil isEnd stream)
  rw [linesIn, linesIn, List.splitOnP_cons_eq_if_modifyHead, if_pos ends, split, feed, if_pos ends]
  obtain ⟨pending, overflowed⟩ := reader
  cases overflowed with
  | true => simp
  | false =>
    cases pending with
    | nil => simp
    | cons c rest =>
      have fits : rest.length + 1 ≤ Message.maxLength := within.length_le
      simp [List.filter_cons_of_pos, fits]

/-- Any other byte makes the first run longer. -/
theorem linesIn_cons_of_not_isEnd (within : reader.WithinBuffer) (goes : ¬ isEnd b) :
    reader.linesIn (b :: stream) = (reader.feed b).1.linesIn stream := by
  obtain ⟨run, runs, split⟩ := List.exists_cons_of_ne_nil (List.splitOnP_ne_nil isEnd stream)
  rw [linesIn, linesIn, List.splitOnP_cons_eq_if_modifyHead, if_neg goes, split, feed, if_neg goes]
  obtain ⟨pending, overflowed⟩ := reader
  cases overflowed with
  | true => cases runs <;> simp
  | false =>
    by_cases room : pending.length < Message.maxLength
    · simp [room]
    · -- The run does not fit the buffer any more, and so is no line.
      have long : ¬ pending.length + (run.length + 1) ≤ Message.maxLength := by omega
      cases runs <;> simp [room, long]

/-- A reader finds the lines of any stream. -/
theorem feedAll_eq_linesIn (within : reader.WithinBuffer) :
    (reader.feedAll stream).2 = reader.linesIn stream := by
  induction stream generalizing reader with
  | nil => exact linesIn_nil.symm
  | cons b stream ih =>
    change (reader.feed b).2.toList ++ ((reader.feed b).1.feedAll stream).2 = _
    rw [ih within.feed]
    by_cases ends : isEnd b
    · rw [linesIn_cons_of_isEnd within ends, feed, if_pos ends]
    · have silent : (reader.feed b).2 = none := by
        rw [feed, if_neg ends]
        split
        · rfl
        · split <;> rfl
      rw [linesIn_cons_of_not_isEnd within ends, silent]
      rfl

/-- What is held belongs to the first line, and the last line goes on. -/
example : ({ pending := [97] } : LineReader).linesIn [98, 13, 10, 99, 10, 100] =
    [[97, 98], [99]] := by
  decide

end Proximity.LineReader
