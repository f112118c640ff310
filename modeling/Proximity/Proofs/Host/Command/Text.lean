import Proximity.Proofs.Host.Command.Members
import Proximity.Proofs.Host.Json.Writer
import Mathlib.Data.List.Forall2

/-! Which texts of an object state a command: the members may come in any order, with blanks between
their parts and among members that no command needs. -/

namespace Proximity.Command

open Json

/-- The member as text, with blanks around its key and its value. -/
def Entry.Spells (entry : Entry) (text : List Char) : Prop :=
  ∃ a b c d, Gap a ∧ Gap b ∧ Gap c ∧ Gap d ∧
    text = a ++ quoted entry.key.toList ++ b ++ ':' :: (c ++ entry.value ++ d)

/-- The text of an object with the given members. -/
def Spells (entries : List Entry) (text : List Char) : Prop :=
  (∀ entry ∈ entries, entry.WellFormed) ∧
    ∃ items, List.Forall₂ Entry.Spells entries items ∧ text = bracket '\x7b' '\x7d' items

section Values

variable {n : Int} {text : String} {gap : List Char} {rest : Bytes}

theorem reads_name (raw : Raw text.toList) (blank : Gap gap) (rest : Bytes)
    (short : Utf8.size text.toList ≤ maxNameSize) :
    Reads name? (Utf8.write gap ++ (Utf8.write (quoted text.toList) ++ rest)) text rest := by
  obtain ⟨shorter, read⟩ := reads_string blank raw rest
  rw [String.ofList_toList] at read
  rw [write_quoted_append]
  exact ⟨shorter, by rw [name?, read]; exact if_pos short⟩

theorem name?_eq_none (raw : Raw text.toList) (blank : Gap gap) (rest : Bytes)
    (long : ¬ Utf8.size text.toList ≤ maxNameSize) :
    name? (Utf8.write gap ++ (Utf8.write (quoted text.toList) ++ rest)) = none := by
  obtain ⟨_, read⟩ := reads_string blank raw rest
  rw [String.ofList_toList] at read
  rw [write_quoted_append, name?, read]
  exact if_neg long

theorem reads_int16 (low : -32768 ≤ n) (high : n ≤ 32767) (stops : ∀ b ∈ rest.head?, ¬ isDigit b) :
    Reads int16? (Utf8.write (Decimal.writeInt n) ++ rest) (Int16.ofInt n) rest := by
  obtain ⟨_, read⟩ := reads_integer n stops
  exact ⟨_, by rw [int16?, read]; exact if_pos ⟨low, high⟩⟩

theorem int16?_eq_none (outside : ¬ (-32768 ≤ n ∧ n ≤ 32767))
    (stops : ∀ b ∈ rest.head?, ¬ isDigit b) :
    int16? (Utf8.write (Decimal.writeInt n) ++ rest) = none := by
  obtain ⟨_, read⟩ := reads_integer n stops
  rw [int16?, read]
  exact if_neg outside

theorem reads_uint32 (low : 0 ≤ n) (high : n ≤ 4294967295)
    (stops : ∀ b ∈ rest.head?, ¬ isDigit b) :
    Reads uint32? (Utf8.write (Decimal.writeInt n) ++ rest) (UInt32.ofNat n.toNat) rest := by
  obtain ⟨n, rfl⟩ := Int.eq_ofNat_of_zero_le low
  obtain ⟨_, read⟩ := reads_natural n stops
  have inside : n < UInt32.size := by
    rw [UInt32.size]
    omega
  exact ⟨_, by
    rw [uint32?]
    show (natural? (Utf8.write (Decimal.write n) ++ rest)).bind _ = _
    rw [read]
    exact if_pos inside⟩

theorem uint32?_eq_none (outside : ¬ (0 ≤ n ∧ n ≤ 4294967295))
    (stops : ∀ b ∈ rest.head?, ¬ isDigit b) :
    uint32? (Utf8.write (Decimal.writeInt n) ++ rest) = none := by
  cases n with
  | ofNat n =>
    obtain ⟨_, read⟩ := reads_natural n stops
    have large : ¬ n < UInt32.size := by
      rw [UInt32.size]
      simp only [Int.ofNat_eq_natCast] at outside
      omega
    rw [uint32?]
    show (natural? (Utf8.write (Decimal.write n) ++ rest)).bind _ = _
    rw [read]
    exact if_neg large
  | negSucc n =>
    rw [write_negative, List.cons_append, uint32?, natural?_negative]
    rfl

end Values

section Reading

variable {draft draft' : Draft} {entry : Entry} {gap gap' : List Char} {d : UInt8}

/-- The text of a value with blanks around it, and what follows. -/
def around (gap : List Char) (entry : Entry) (gap' : List Char) (rest : Bytes) : Bytes :=
  Utf8.write gap ++ (Utf8.write entry.value ++ (Utf8.write gap' ++ rest))

/-- A member that the draft takes is read up to the blanks behind its value, or past them. -/
theorem reads_entry (wellFormed : entry.WellFormed) (blank : Gap gap) (blank' : Gap gap')
    (ends : isDelimiter d) (rest : Bytes) (takes : draft.take? entry = some draft') :
    ∃ after, Gap after ∧
      Reads (draft.read? entry.key) (around gap entry gap' (d :: rest)) draft'
        (Utf8.write after ++ d :: rest) := by
  have stops := not_isDigit_of_head? blank' ends rest
  cases entry with
  | name text =>
    obtain ⟨⟨fresh, short⟩, same⟩ := Option.ite_none_right_eq_some.mp takes
    cases same
    obtain ⟨shorter, read⟩ := reads_name wellFormed blank (Utf8.write gap' ++ d :: rest) short
    exact ⟨gap', blank', shorter, by
      simp [Draft.read?, Entry.key, fresh, around, Entry.value, read]⟩
  | minRssi n =>
    obtain ⟨⟨fresh, low, high⟩, same⟩ := Option.ite_none_right_eq_some.mp takes
    cases same
    obtain ⟨shorter, read⟩ := reads_orNull blank (reads_int16 low high stops)
    exact ⟨gap', blank', shorter, by
      simp [Draft.read?, Entry.key, fresh, around, Entry.value, read]⟩
  | windowMs n =>
    obtain ⟨⟨fresh, low, high⟩, same⟩ := Option.ite_none_right_eq_some.mp takes
    cases same
    obtain ⟨shorter, read⟩ := reads_orNull blank (reads_uint32 low high stops)
    exact ⟨gap', blank', shorter, by
      simp [Draft.read?, Entry.key, fresh, around, Entry.value, read]⟩
  | other key value =>
    obtain ⟨unknown, -, scalar⟩ := wellFormed
    cases takes
    obtain ⟨after, blankAfter, shorter, skips⟩ := scalar.skips blank blank' ends rest
    simp only [knownKeys, List.mem_cons, List.not_mem_nil, or_false, not_or] at unknown
    exact ⟨after, blankAfter, shorter, by
      simp [Draft.read?, Entry.key, unknown, around, Entry.value, skips]⟩

/-- A member that the draft does not take is repeated, or its value is refused. -/
theorem read?_eq_none (wellFormed : entry.WellFormed) (blank : Gap gap) (blank' : Gap gap')
    (ends : isDelimiter d) (rest : Bytes) (refuses : draft.take? entry = none) :
    draft.read? entry.key (around gap entry gap' (d :: rest)) = none := by
  have stops := not_isDigit_of_head? blank' ends rest
  cases entry with
  | name text =>
    have refused : ¬ (draft.name = none ∧ Utf8.size text.toList ≤ maxNameSize) :=
      fun takes => Option.some_ne_none _ (ite_eq_right_iff.mp refuses takes)
    cases fresh : draft.name with
    | some other => simp [Draft.read?, Entry.key, fresh]
    | none =>
      have none := name?_eq_none wellFormed blank (Utf8.write gap' ++ d :: rest)
        fun short => refused ⟨fresh, short⟩
      simp [Draft.read?, Entry.key, fresh, around, Entry.value, none]
  | minRssi n =>
    have refused : ¬ (draft.minRssi = none ∧ (Entry.minRssi n).InRange) :=
      fun takes => Option.some_ne_none _ (ite_eq_right_iff.mp refuses takes)
    cases fresh : draft.minRssi with
    | some other => simp [Draft.read?, Entry.key, fresh]
    | none =>
      have none := orNull?_eq_none blank
        (int16?_eq_none (fun inRange => refused ⟨fresh, inRange⟩) stops)
      simp [Draft.read?, Entry.key, fresh, around, Entry.value, none]
  | windowMs n =>
    have refused : ¬ (draft.windowMs = none ∧ (Entry.windowMs n).InRange) :=
      fun takes => Option.some_ne_none _ (ite_eq_right_iff.mp refuses takes)
    cases fresh : draft.windowMs with
    | some other => simp [Draft.read?, Entry.key, fresh]
    | none =>
      have none := orNull?_eq_none blank
        (uint32?_eq_none (fun inRange => refused ⟨fresh, inRange⟩) stops)
      simp [Draft.read?, Entry.key, fresh, around, Entry.value, none]
  | other key value => cases refuses

theorem members?_stop (draft : Draft) (first : Bool) (blank : Gap gap) (rest : Bytes) :
    members? draft first (Utf8.write gap ++ byte '\x7d' :: rest) = some (draft, rest) := by
  obtain ⟨_, read⟩ := member?_stop first blank rest
  rw [members?, read]
  rfl

/-- A member is taken into the draft, and the members that follow after it. -/
theorem members?_entry {entries : List Entry} {first : Bool} {input rest behind : Bytes}
    (wellFormed : entry.WellFormed) (blank : Gap gap) (blank' : Gap gap') (ends : isDelimiter d)
    (names : Names (member? first) input entry.key.toList (around gap entry gap' (d :: rest)))
    (others : ∀ (draft : Draft) (after : List Char), Gap after →
      members? draft false (Utf8.write after ++ d :: rest) =
        (entries.foldlM Draft.take? draft).map fun draft => (draft, behind)) :
    members? draft first input =
      ((entry :: entries).foldlM Draft.take? draft).map fun draft => (draft, behind) := by
  obtain ⟨_, named⟩ := names
  rw [String.ofList_toList] at named
  rw [members?, named, List.foldlM_cons]
  cases takes : draft.take? entry with
  | none => simp [read?_eq_none wellFormed blank blank' ends rest takes]
  | some taken =>
    obtain ⟨after, blankAfter, _, read⟩ := reads_entry wellFormed blank blank' ends rest takes
    simp [read, others taken after blankAfter]

/-- The bytes of a member, up to the quote before its name. -/
theorem write_entry_append (entry : Entry) (a b c d : List Char) (rest : Bytes) :
    Utf8.write (a ++ quoted entry.key.toList ++ b ++ ':' :: (c ++ entry.value ++ d)) ++ rest =
      Utf8.write a ++ byte '"' :: (Utf8.write entry.key.toList ++ byte '"' ::
        (Utf8.write b ++ byte ':' :: around c entry d rest)) := by
  have colon (text : List Char) : Utf8.write (':' :: text) = byte ':' :: Utf8.write text :=
    write_cons (by decide)
  simp only [Utf8.write_append, colon, List.append_assoc, List.cons_append, write_quoted_append,
    around]

/-- Members behind commas, up to the end of the object. -/
def following (items : List (List Char)) (rest : Bytes) : Bytes :=
  Utf8.write (items.flatMap (',' :: ·)) ++ byte '\x7d' :: rest

theorem following_cons (item : List Char) (items : List (List Char)) (rest : Bytes) :
    following (item :: items) rest = byte ',' :: (Utf8.write item ++ following items rest) := by
  rw [following, List.flatMap_cons, Utf8.write_append, write_cons (by decide), following]
  simp

/-- A delimiter stands behind every member. -/
theorem exists_delimiter (items : List (List Char)) (rest : Bytes) :
    ∃ d others, following items rest = d :: others ∧ isDelimiter d := by
  cases items with
  | nil => exact ⟨_, _, rfl, by decide⟩
  | cons item items => exact ⟨_, _, following_cons item items rest, by decide⟩

theorem members?_following {entries : List Entry} {items : List (List Char)}
    (wellFormed : ∀ entry ∈ entries, entry.WellFormed)
    (spelled : List.Forall₂ Entry.Spells entries items) (draft : Draft) (blank : Gap gap)
    (rest : Bytes) :
    members? draft false (Utf8.write gap ++ following items rest) =
      (entries.foldlM Draft.take? draft).map fun draft => (draft, rest) := by
  induction spelled generalizing draft gap with
  | nil => exact members?_stop draft false blank rest
  | @cons entry item entries items spells _ ih =>
    obtain ⟨first, others⟩ := List.forall_mem_cons.mp wellFormed
    obtain ⟨a, b, c, d, blankA, blankB, blankC, blankD, rfl⟩ := spells
    obtain ⟨delimiter, behind, same, ends⟩ := exists_delimiter items rest
    rw [following_cons, write_entry_append]
    simp only [same] at ih ⊢
    exact members?_entry first blankC blankD ends
      (names_later blank blankA (names_of_quote first.raw_key blankB _))
      fun draft after blankAfter => ih others draft blankAfter

theorem write_bracket_append (items : List (List Char)) (rest : Bytes) :
    Utf8.write (bracket '\x7b' '\x7d' items) ++ rest =
      byte '\x7b' :: (Utf8.write ([','].intercalate items) ++ byte '\x7d' :: rest) := by
  rw [bracket, List.cons_append, write_cons (by decide), Utf8.write_append,
    Utf8.write_ascii (by decide), List.cons_append, List.append_assoc]
  rfl

/-- The members of an object are taken one after another. -/
theorem members?_inside {entries : List Entry} {items : List (List Char)}
    (wellFormed : ∀ entry ∈ entries, entry.WellFormed)
    (spelled : List.Forall₂ Entry.Spells entries items) (rest : Bytes) :
    members? {} true (Utf8.write ([','].intercalate items) ++ byte '\x7d' :: rest) =
      (entries.foldlM Draft.take? {}).map fun draft => (draft, rest) := by
  cases spelled with
  | nil => exact members?_stop {} true (List.forall_mem_nil _) rest
  | @cons entry item entries items spells spelled =>
    obtain ⟨first, others⟩ := List.forall_mem_cons.mp wellFormed
    obtain ⟨a, b, c, d, blankA, blankB, blankC, blankD, rfl⟩ := spells
    obtain ⟨delimiter, behind, same, ends⟩ := exists_delimiter items rest
    have later (draft : Draft) (after : List Char) (blankAfter : Gap after) :=
      members?_following others spelled draft blankAfter rest
    rw [intercalate_cons, Utf8.write_append, List.append_assoc, write_entry_append, ← following,
      same]
    simp only [same] at later
    exact members?_entry first blankC blankD ends
      (names_first blankA (names_of_quote first.raw_key blankB _)) later

end Reading

section Line

variable {entries : List Entry} {text : List Char} {before after : Bytes}

/-- Blanks before the object are cut off, and blanks at the end. -/
theorem trim_object (items : List (List Char)) (blank : ∀ b ∈ before, isOuterBlank b)
    (after : Bytes) :
    trim (before ++ Utf8.write (bracket '\x7b' '\x7d' items) ++ after) =
      Utf8.write (bracket '\x7b' '\x7d' items) ++
        (after.reverse.dropWhile isOuterBlank).reverse := by
  have opens : ¬ isOuterBlank (byte '\x7b') := by decide
  have closes : ¬ isOuterBlank (byte '\x7d') := by decide
  have text := write_bracket_append items
  have whole := text []
  rw [List.append_nil] at whole
  rw [List.append_assoc, trim, List.dropWhile_append_of_pos blank, text,
    List.dropWhile_cons_of_neg opens, ← text, List.reverse_append, List.dropWhile_append]
  split
  · rename_i none
    have := List.isEmpty_iff.mp none
    rw [this, whole]
    simp [closes]
  · simp

/-- What is left at the end after blanks were cut off is blank only if nothing is left. -/
theorem all_isBlank_iff (after : Bytes) :
    (after.reverse.dropWhile isOuterBlank).reverse.all isBlank ↔ after.all isOuterBlank := by
  rw [List.all_reverse, List.all_eq_true (l := after)]
  cases left : after.reverse.dropWhile isOuterBlank with
  | nil => simpa using List.dropWhile_eq_nil_iff.mp left
  | cons b others =>
    have stays : isOuterBlank b = false := by
      have := List.head_dropWhile_not isOuterBlank (l := after.reverse) (by simp [left])
      simpa [left] using this
    have inside : b ∈ after :=
      List.mem_reverse.mp ((List.dropWhile_sublist _).subset (left ▸ List.mem_cons_self))
    refine iff_of_false (fun all => ?_) fun all => ?_
    · have blank := List.all_eq_true.mp all b List.mem_cons_self
      simp [isOuterBlank, blank] at stays
    · rw [all b inside] at stays
      cases stays

/-- The object on a line is all of the line but for blanks. -/
theorem object?_line (spells : Spells entries text) (blank : ∀ b ∈ before, isOuterBlank b) :
    object? (trim (before ++ Utf8.write text ++ after)) =
      if after.all isOuterBlank then entries.foldlM Draft.take? {} else none := by
  obtain ⟨wellFormed, items, spelled, rfl⟩ := spells
  rw [trim_object items blank, write_bracket_append]
  generalize trimmed : (after.reverse.dropWhile isOuterBlank).reverse = rest
  have blankRest : rest.all isBlank ↔ after.all isOuterBlank := trimmed ▸ all_isBlank_iff after
  obtain ⟨_, next⟩ : Reads next? (byte '\x7b' :: (Utf8.write ([','].intercalate items) ++
      byte '\x7d' :: rest)) (byte '\x7b') _ :=
    reads_next (List.forall_mem_nil _ : Gap []) (by decide) _
  rw [object?, next]
  simp only [Option.bind_eq_bind, Option.bind_some, if_true, members?_inside wellFormed spelled,
    Option.bind_map, Function.comp_def, blankRest]
  split
  · simp
  · simp

/-- A line is read as the command that the members of its object state. -/
theorem read?_eq_some_iff (spells : Spells entries text) (blank : ∀ b ∈ before, isOuterBlank b)
    (after : Bytes) (command : Command) :
    read? (before ++ Utf8.write text ++ after) = some command ↔
      States entries command ∧ ∀ b ∈ after, isOuterBlank b := by
  rw [read?, object?_line spells blank, Option.bind_eq_bind, Option.bind_eq_some_iff,
    ← List.all_eq_true]
  simp only [Option.ite_none_right_eq_some, foldlM_take?_eq_some_iff]
  constructor
  · rintro ⟨draft, ⟨ends, gathers⟩, answers⟩
    exact ⟨gathers.states spells.1 answers, ends⟩
  · rintro ⟨states, ends⟩
    obtain ⟨draft, gathers, answers⟩ := states.gathers spells.1
    exact ⟨draft, ⟨ends, gathers⟩, answers⟩

/-- Members that state a command state the one that they name. -/
theorem States.name_eq {command : Command} (states : States entries command)
    (wellFormed : ∀ entry ∈ entries, entry.WellFormed) {text : String}
    (named : .name text ∈ entries) : text = command.name := by
  have one := ((once_iff wellFormed).mp states.once).1
  have only := eq_singleton one (mem_filterMap_name?.mpr (states.needed _ List.mem_cons_self))
  exact List.mem_singleton.mp (only ▸ mem_filterMap_name?.mpr named)

/-- A line is the command that the members of its object state, in whatever order they come and
whatever stands between them. It is none if a number is out of its range, a known member is repeated
or the one that the named command needs is missing, or if anything but blanks follows. -/
theorem reads_spelling (spells : Spells entries text) (blank : ∀ b ∈ before, isOuterBlank b)
    (after : Bytes) :
    (∀ command, read? (before ++ Utf8.write text ++ after) = some command ↔
      States entries command ∧ ∀ b ∈ after, isOuterBlank b) ∧
    ((∃ entry ∈ entries, ¬ entry.InRange) ∨
      (∃ key ∈ knownKeys, 2 ≤ (entries.map Entry.key).count key) ∨
      (.name "set_rssi" ∈ entries ∧ ∀ n, .minRssi n ∉ entries) ∨
      (.name "set_window" ∈ entries ∧ ∀ n, .windowMs n ∉ entries) ∨
      (∃ b ∈ after, ¬ isOuterBlank b) →
        read? (before ++ Utf8.write text ++ after) = none) := by
  have reads := read?_eq_some_iff spells blank after
  refine ⟨reads, fun wrong => Option.eq_none_iff_forall_ne_some.mpr fun command read => ?_⟩
  obtain ⟨states, ends⟩ := (reads command).mp read
  rcases wrong with ⟨entry, member, outside⟩ | ⟨key, known, twice⟩ | ⟨named, missing⟩ |
    ⟨named, missing⟩ | ⟨b, member, other⟩
  · exact outside (states.inRange entry member)
  · have := states.once key known
    omega
  · have same := states.name_eq spells.1 named
    cases command with
    | setRssi n => exact missing _ (states.needed _ (List.mem_cons_of_mem _ List.mem_cons_self))
    | _ => exact absurd same (by simp [Command.name])
  · have same := states.name_eq spells.1 named
    cases command with
    | setWindow n => exact missing _ (states.needed _ (List.mem_cons_of_mem _ List.mem_cons_self))
    | _ => exact absurd same (by simp [Command.name])
  · exact other (ends b member)

theorem reads_spelling_set_rssi :
    read? (Utf8.write "\t\x7b\"id\" : 7, \"min_rssi\":-75 ,\"cmd\":\"set_rssi\"\x7d\n".toList) =
      some (.setRssi (-75)) := by
  have wellFormed : ∀ entry ∈ [Entry.other "id" ['7'], .minRssi (-75), .name "set_rssi"],
      entry.WellFormed := by
    simp only [List.forall_mem_cons]
    have digit : Scalar ['7'] := .natural (List.cons_ne_nil _ _) (List.forall_mem_singleton.mpr rfl)
    exact ⟨⟨by decide, raw_of_all (by decide), digit⟩, trivial, raw_of_all (by decide),
      List.forall_mem_nil _⟩
  have spells : Spells [.other "id" ['7'], .minRssi (-75), .name "set_rssi"]
      "\x7b\"id\" : 7, \"min_rssi\":-75 ,\"cmd\":\"set_rssi\"\x7d".toList := by
    refine ⟨wellFormed, [_, _, _], .cons
      ⟨[], [' '], [' '], [], by decide, by decide, by decide, by decide, rfl⟩ (.cons
      ⟨[' '], [], [], [' '], by decide, by decide, by decide, by decide, rfl⟩ (.cons
      ⟨[], [], [], [], by decide, by decide, by decide, by decide, rfl⟩ .nil)), ?_⟩
    decide +kernel
  have blank : ∀ b ∈ Utf8.write ['\t'], isOuterBlank b := by decide +kernel
  exact ((reads_spelling spells blank (Utf8.write ['\n'])).1 _).mpr (by decide +kernel)

end Line

end Proximity.Command
