import Proximity.Proofs.Host.LineReader
import Proximity.Proofs.Monitor.Run

/-! What the bytes of a host do to a monitor. They change it as the commands do that their lines
state, one after another, and it makes no difference where the bytes are cut into chunks. -/

namespace Proximity.Monitor

/-- The monitor after the commands. -/
def obey (monitor : Monitor) (commands : List Command) : Monitor :=
  commands.foldl (fun monitor command => (monitor.applyCommand command).1) monitor

/-- The monitor after chunks of bytes, and whether the host asks for a status message in any. -/
def feedChunks (monitor : Monitor) (chunks : List Bytes) : Monitor × Bool :=
  chunks.foldl (fun (monitor, asked) chunk =>
      let (monitor, asks) := monitor.feed chunk
      (monitor, asked || asks))
    (monitor, false)

variable {monitor : Monitor} {commands more : List Command}

theorem obey_append : monitor.obey (commands ++ more) = (monitor.obey commands).obey more :=
  List.foldl_append

theorem obey_reader {reader : LineReader} :
    ({ monitor with reader } : Monitor).obey commands =
      { monitor.obey commands with reader } := by
  induction commands generalizing monitor with
  | nil => rfl
  | cons command commands ih => exact @ih (monitor.applyCommand command).1

theorem config_obey :
    (monitor.obey commands).config = commands.foldl Command.apply monitor.config := by
  induction commands generalizing monitor with
  | nil => rfl
  | cons command commands ih => exact @ih (monitor.applyCommand command).1

theorem foldl_applyLine (lines : List Bytes) (monitor : Monitor) (asked : Bool) :
    lines.foldl (fun (monitor, asked) line =>
        let (monitor, asks) := monitor.applyLine line
        (monitor, asked || asks)) (monitor, asked) =
      (monitor.obey (lines.filterMap Command.read?),
        asked || (lines.filterMap Command.read?).any Command.asksStatus) := by
  induction lines generalizing monitor asked with
  | nil => simp [obey]
  | cons line lines ih =>
    rw [List.foldl_cons, ih]
    cases read : Command.read? line with
    | none => simp [applyLine, read]
    | some command => simp [applyLine, read, applyCommand, obey, Bool.or_assoc]

/-- Bytes of the host are read into lines, and the commands in the lines are obeyed. -/
theorem feed_eq (monitor : Monitor) (bytes : Bytes) :
    let commands := (monitor.reader.feedAll bytes).2.filterMap Command.read?
    monitor.feed bytes =
      ({ monitor.obey commands with reader := (monitor.reader.feedAll bytes).1 },
        commands.any Command.asksStatus) := by
  intro commands
  rw [← obey_reader]
  exact (foldl_applyLine _ _ _).trans (by rw [Bool.false_or])

theorem feed_append (monitor : Monitor) (front back : Bytes) :
    monitor.feed (front ++ back) =
      (((monitor.feed front).1.feed back).1,
        (monitor.feed front).2 || ((monitor.feed front).1.feed back).2) := by
  simp only [feed_eq, LineReader.feedAll_append, List.filterMap_append, List.any_append,
    obey_append, obey_reader]

theorem feedChunks_eq (monitor : Monitor) (chunks : List Bytes) :
    monitor.feedChunks chunks = monitor.feed chunks.flatten := by
  induction chunks using List.reverseRecOn with
  | nil => rfl
  | append_singleton chunks chunk ih =>
    rw [feedChunks, List.foldl_concat, ← feedChunks, ih, List.flatten_concat, feed_append]

namespace Session

variable {session : Session} {action : Action}

theorem step_withinBuffer (within : session.monitor.reader.WithinBuffer) :
    (session.step action).monitor.reader.WithinBuffer := by
  cases action with
  | process received =>
    rw [step, (process_rest _ _ received).2.2]
    exact within
  | feed bytes =>
    rw [step, feed_eq]
    exact within.feedAll
  | purge | report | setConfig _ | command _ | advance _ => exact within

/-- Whatever a monitor has been through, the bytes of a host do the same in chunks as in one piece.
The settings change as the commands say that the lines of the stream state, and a status message is
asked for if one of the commands asks for it. -/
theorem feedChunks_eq_feed_flatten (time : Nanoseconds) (layouts : List Layout)
    (regions : List Region) (config : Config) (actions : List Action) (chunks : List Bytes) :
    let monitor := ((start time layouts regions config).run actions).monitor
    let stream := chunks.flatten
    let commands := (monitor.reader.linesIn stream).filterMap Command.read?
    monitor.feedChunks chunks = monitor.feed stream ∧
      (monitor.feed stream).1.config = commands.foldl Command.apply monitor.config ∧
      ((monitor.feed stream).2 = true ↔ .status ∈ commands) := by
  intro monitor stream commands
  have within : monitor.reader.WithinBuffer :=
    run_invariant (motive := fun later => later.monitor.reader.WithinBuffer)
      (fun _ _ => step_withinBuffer) ⟨Nat.zero_le _, nofun⟩
  have read : (monitor.reader.feedAll stream).2.filterMap Command.read? = commands := by
    rw [LineReader.feedAll_eq_linesIn within]
  refine ⟨feedChunks_eq monitor chunks, ?_, ?_⟩
  · rw [feed_eq, read]
    exact config_obey
  · rw [feed_eq, read]
    simp [Command.asksStatus]

end Session

end Proximity.Monitor
