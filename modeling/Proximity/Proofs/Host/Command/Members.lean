import Proximity.Host.Command.Text
import Proximity.Proofs.Host.Json.Reader

/-! Which members of an object state a command, and what a draft holds when they were read one after
another. -/

namespace Proximity.Command

open Json

/-- A member that a host may write. -/
inductive Entry
  /-- The name of a command. -/
  | name (text : String)
  | minRssi (n : Int)
  | windowMs (n : Int)
  /-- A member that no command needs, with the text of its value. -/
  | other (key : String) (value : List Char)
deriving DecidableEq

/-- The names of the members that a command may need. -/
def knownKeys : List String := ["cmd", "min_rssi", "window_ms"]

namespace Entry

def key : Entry → String
  | .name _ => "cmd"
  | .minRssi _ => "min_rssi"
  | .windowMs _ => "window_ms"
  | .other key _ => key

/-- The text of the value. Numbers are written without leading zeros. -/
def value : Entry → List Char
  | .name text => quoted text.toList
  | .minRssi n => Decimal.writeInt n
  | .windowMs n => Decimal.writeInt n
  | .other _ value => value

/-- Strings are closed by their last quote alone, and a member of no use holds a string or an
integer. -/
def WellFormed : Entry → Prop
  | .name text => Raw text.toList
  | .minRssi _ => True
  | .windowMs _ => True
  | .other key value => key ∉ knownKeys ∧ Raw key.toList ∧ Scalar value

/-- The number is one that the command can take. -/
def InRange : Entry → Prop
  | .name _ => True
  | .minRssi n => -32768 ≤ n ∧ n ≤ 32767
  | .windowMs n => 0 ≤ n ∧ n ≤ 4294967295
  | .other _ _ => True

instance : (entry : Entry) → Decidable entry.InRange
  | .name _ => .isTrue trivial
  | .minRssi n => inferInstanceAs (Decidable (-32768 ≤ n ∧ n ≤ 32767))
  | .windowMs n => inferInstanceAs (Decidable (0 ≤ n ∧ n ≤ 4294967295))
  | .other _ _ => .isTrue trivial

/-- No key has to be escaped. -/
theorem WellFormed.raw_key {entry : Entry} (wellFormed : entry.WellFormed) :
    Raw entry.key.toList := by
  cases entry with
  | name text => exact raw_of_all (by decide : "cmd".toList.all _)
  | minRssi n => exact raw_of_all (by decide : "min_rssi".toList.all _)
  | windowMs n => exact raw_of_all (by decide : "window_ms".toList.all _)
  | other key value => exact wellFormed.2.1

end Entry

def name : Command → String
  | .start => "start"
  | .stop => "stop"
  | .status => "status"
  | .setRssi _ => "set_rssi"
  | .setWindow _ => "set_window"

theorem size_name_le (command : Command) : Utf8.size command.name.toList ≤ maxNameSize := by
  cases command <;> rw [name] <;> decide

/-- The members that the command needs. -/
def entries (command : Command) : List Entry :=
  .name command.name :: match command with
    | .setRssi minRssi => [.minRssi minRssi.toInt]
    | .setWindow windowMs => [.windowMs windowMs.toNat]
    | _ => []

/-- The members state the command. They are what it needs, and more members only so far as they do
not repeat a known key, and hold numbers of their range. -/
structure States (entries : List Entry) (command : Command) : Prop where
  needed : ∀ entry ∈ command.entries, entry ∈ entries
  once : ∀ key ∈ knownKeys, (entries.map Entry.key).count key ≤ 1
  inRange : ∀ entry ∈ entries, entry.InRange

instance (entries : List Entry) (command : Command) : Decidable (States entries command) :=
  decidable_of_iff ((∀ entry ∈ command.entries, entry ∈ entries) ∧
      (∀ key ∈ knownKeys, (entries.map Entry.key).count key ≤ 1) ∧ ∀ entry ∈ entries, entry.InRange)
    ⟨fun ⟨needed, once, inRange⟩ => ⟨needed, once, inRange⟩,
      fun ⟨needed, once, inRange⟩ => ⟨needed, once, inRange⟩⟩

/-- The draft with a member added, if its place is free and the value can be read. -/
def Draft.take? (draft : Draft) : Entry → Option Draft
  | .name text =>
    if draft.name = none ∧ Utf8.size text.toList ≤ maxNameSize then
      some { draft with name := some text }
    else none
  | .minRssi n =>
    if draft.minRssi = none ∧ (Entry.minRssi n).InRange then
      some { draft with minRssi := some (some (Int16.ofInt n)) }
    else none
  | .windowMs n =>
    if draft.windowMs = none ∧ (Entry.windowMs n).InRange then
      some { draft with windowMs := some (some (UInt32.ofNat n.toNat)) }
    else none
  | .other _ _ => some draft

section Places

variable {α : Type} {o o' : Option α} {l : List α} {a : α}

theorem toList_injective (same : o.toList = o'.toList) : o = o' := by
  rw [← o.head?_toList, same, o'.head?_toList]

/-- Where there is one place, something is put first if the place is free. -/
theorem toList_append_cons : o.toList ++ a :: l = o'.toList ↔
    o = none ∧ (some a).toList ++ l = o'.toList := by
  cases o with
  | none => exact (and_iff_right rfl).symm
  | some b => cases o' <;> simp

theorem toList_head? (one : l.length ≤ 1) : l.head?.toList = l := by
  match l with
  | [] => rfl
  | [_] => rfl

theorem eq_singleton (one : l.length ≤ 1) (member : a ∈ l) : l = [a] := by
  match l with
  | [_] => rw [List.mem_singleton.mp member]

end Places

section Drafts

variable {entries : List Entry} {draft draft' : Draft}

/-- What the member puts in the place for the name of the command. -/
def Entry.name? : Entry → Option String
  | .name text => some text
  | _ => none

def Entry.minRssi? : Entry → Option (Option Int16)
  | .minRssi n => some (some (Int16.ofInt n))
  | _ => none

def Entry.windowMs? : Entry → Option (Option UInt32)
  | .windowMs n => some (some (UInt32.ofNat n.toNat))
  | _ => none

/-- The value is one that can be read. -/
def Entry.Readable (entry : Entry) : Prop :=
  entry.InRange ∧ ∀ text ∈ entry.name?, Utf8.size text.toList ≤ maxNameSize

/-- The draft `draft'` has what `draft` has and what the members state, which is then no more than
one thing for each place. -/
structure Gathers (draft : Draft) (entries : List Entry) (draft' : Draft) : Prop where
  readable : ∀ entry ∈ entries, entry.Readable
  name : draft.name.toList ++ entries.filterMap Entry.name? = draft'.name.toList
  minRssi : draft.minRssi.toList ++ entries.filterMap Entry.minRssi? = draft'.minRssi.toList
  windowMs : draft.windowMs.toList ++ entries.filterMap Entry.windowMs? = draft'.windowMs.toList

theorem gathers_nil : Gathers draft [] draft' ↔ draft = draft' := by
  constructor
  · rintro ⟨-, name, minRssi, windowMs⟩
    simp only [List.filterMap_nil, List.append_nil] at name minRssi windowMs
    cases draft
    cases draft'
    simp only [Draft.mk.injEq]
    exact ⟨toList_injective name, toList_injective minRssi, toList_injective windowMs⟩
  · rintro rfl
    exact ⟨List.forall_mem_nil _, by simp, by simp, by simp⟩

/-- What is gathered behind a member starts from the draft that takes the member. -/
theorem gathers_cons {entry : Entry} : Gathers draft (entry :: entries) draft' ↔
    ∃ taken, draft.take? entry = some taken ∧ Gathers taken entries draft' := by
  cases entry with
  | name text =>
    constructor
    · rintro ⟨readable, name, minRssi, windowMs⟩
      obtain ⟨first, others⟩ := List.forall_mem_cons.mp readable
      obtain ⟨fresh, name⟩ := toList_append_cons.mp name
      exact ⟨_, if_pos ⟨fresh, first.2 text rfl⟩, others, name, minRssi, windowMs⟩
    · rintro ⟨taken, takes, readable, name, minRssi, windowMs⟩
      obtain ⟨⟨fresh, short⟩, same⟩ := Option.ite_none_right_eq_some.mp takes
      cases same
      have first : (Entry.name text).Readable := ⟨trivial, by rintro _ ⟨⟩; exact short⟩
      have placed := toList_append_cons.mpr ⟨fresh, name⟩
      exact ⟨List.forall_mem_cons.mpr ⟨first, readable⟩, placed, minRssi, windowMs⟩
  | minRssi n =>
    constructor
    · rintro ⟨readable, name, minRssi, windowMs⟩
      obtain ⟨first, others⟩ := List.forall_mem_cons.mp readable
      obtain ⟨fresh, minRssi⟩ := toList_append_cons.mp minRssi
      exact ⟨_, if_pos ⟨fresh, first.1⟩, others, name, minRssi, windowMs⟩
    · rintro ⟨taken, takes, readable, name, minRssi, windowMs⟩
      obtain ⟨⟨fresh, inRange⟩, same⟩ := Option.ite_none_right_eq_some.mp takes
      cases same
      have first : (Entry.minRssi n).Readable := ⟨inRange, nofun⟩
      have placed := toList_append_cons.mpr ⟨fresh, minRssi⟩
      exact ⟨List.forall_mem_cons.mpr ⟨first, readable⟩, name, placed, windowMs⟩
  | windowMs n =>
    constructor
    · rintro ⟨readable, name, minRssi, windowMs⟩
      obtain ⟨first, others⟩ := List.forall_mem_cons.mp readable
      obtain ⟨fresh, windowMs⟩ := toList_append_cons.mp windowMs
      exact ⟨_, if_pos ⟨fresh, first.1⟩, others, name, minRssi, windowMs⟩
    · rintro ⟨taken, takes, readable, name, minRssi, windowMs⟩
      obtain ⟨⟨fresh, inRange⟩, same⟩ := Option.ite_none_right_eq_some.mp takes
      cases same
      have first : (Entry.windowMs n).Readable := ⟨inRange, nofun⟩
      have placed := toList_append_cons.mpr ⟨fresh, windowMs⟩
      exact ⟨List.forall_mem_cons.mpr ⟨first, readable⟩, name, minRssi, placed⟩
  | other key value =>
    constructor
    · rintro ⟨readable, name, minRssi, windowMs⟩
      exact ⟨draft, rfl, (List.forall_mem_cons.mp readable).2, name, minRssi, windowMs⟩
    · rintro ⟨_, ⟨⟩, readable, name, minRssi, windowMs⟩
      have first : (Entry.other key value).Readable := ⟨trivial, nofun⟩
      exact ⟨List.forall_mem_cons.mpr ⟨first, readable⟩, name, minRssi, windowMs⟩

theorem foldlM_take?_eq_some_iff :
    entries.foldlM Draft.take? draft = some draft' ↔ Gathers draft entries draft' := by
  induction entries generalizing draft with
  | nil =>
    rw [gathers_nil]
    exact Option.some_inj
  | cons entry entries ih =>
    rw [List.foldlM_cons, Option.bind_eq_bind, Option.bind_eq_some_iff, gathers_cons]
    simp only [ih]

/-- The draft has the argument that the command needs. -/
def Draft.Answers (draft : Draft) : Command → Prop
  | .setRssi minRssi => draft.minRssi = some (some minRssi)
  | .setWindow windowMs => draft.windowMs = some (some windowMs)
  | _ => True

theorem command?_eq_some_iff {command : Command} :
    draft.command? = some command ↔ draft.name = some command.name ∧ draft.Answers command := by
  unfold Draft.command?
  cases draft.name with
  | none => simp
  | some text =>
    simp only [Option.bind_eq_bind, Option.bind_some, Option.some_inj]
    split <;> cases command <;>
      simp_all [Command.name, Draft.Answers, Option.bind_eq_some_iff, Option.join_eq_some_iff]

/-- Members of the one kind that has the key are counted by it. -/
theorem count_key {α : Type} (select : Entry → Option α) {key : String}
    (wellFormed : ∀ entry ∈ entries, entry.WellFormed)
    (kind : ∀ entry : Entry, entry.WellFormed → ((select entry).isSome ↔ entry.key = key)) :
    (entries.map Entry.key).count key = (entries.filterMap select).length := by
  rw [List.length_filterMap_eq_countP, List.count, List.countP_map]
  refine List.countP_congr fun entry member => ?_
  simp [kind entry (wellFormed entry member)]

theorem Entry.WellFormed.kinds {entry : Entry} (wellFormed : entry.WellFormed) :
    (entry.name?.isSome ↔ entry.key = "cmd") ∧ (entry.minRssi?.isSome ↔ entry.key = "min_rssi") ∧
      (entry.windowMs?.isSome ↔ entry.key = "window_ms") := by
  cases entry with
  | other key value =>
    have unknown := wellFormed.1
    simpa [knownKeys, name?, minRssi?, windowMs?, Entry.key] using unknown
  | _ => simp [name?, minRssi?, windowMs?, Entry.key]

/-- No known key is repeated exactly if no more is stated than a draft can have. -/
theorem once_iff (wellFormed : ∀ entry ∈ entries, entry.WellFormed) :
    (∀ key ∈ knownKeys, (entries.map Entry.key).count key ≤ 1) ↔
      (entries.filterMap Entry.name?).length ≤ 1 ∧ (entries.filterMap Entry.minRssi?).length ≤ 1 ∧
        (entries.filterMap Entry.windowMs?).length ≤ 1 := by
  rw [← count_key _ wellFormed fun _ wellFormed => wellFormed.kinds.1,
    ← count_key _ wellFormed fun _ wellFormed => wellFormed.kinds.2.1,
    ← count_key _ wellFormed fun _ wellFormed => wellFormed.kinds.2.2]
  simp [knownKeys]

theorem mem_filterMap_name? {text : String} :
    text ∈ entries.filterMap Entry.name? ↔ .name text ∈ entries := by
  rw [List.mem_filterMap]
  refine ⟨?_, fun member => ⟨_, member, rfl⟩⟩
  rintro ⟨_ | _ | _ | _, member, ⟨⟩⟩
  exact member

theorem mem_filterMap_minRssi? (inRange : ∀ entry ∈ entries, entry.InRange) {n : Int16} :
    some n ∈ entries.filterMap Entry.minRssi? ↔ .minRssi n.toInt ∈ entries := by
  rw [List.mem_filterMap]
  refine ⟨?_, fun member => ⟨_, member, by simp [Entry.minRssi?]⟩⟩
  rintro ⟨_ | m | _ | _, member, ⟨⟩⟩
  obtain ⟨low, high⟩ := inRange _ member
  rwa [Int16.toInt_ofInt_of_le low (by omega)]

theorem mem_filterMap_windowMs? (inRange : ∀ entry ∈ entries, entry.InRange) {n : UInt32} :
    some n ∈ entries.filterMap Entry.windowMs? ↔ .windowMs n.toNat ∈ entries := by
  rw [List.mem_filterMap]
  refine ⟨?_, fun member => ⟨_, member, by simp [Entry.windowMs?]⟩⟩
  rintro ⟨_ | _ | m | _, member, ⟨⟩⟩
  obtain ⟨low, high⟩ := inRange _ member
  obtain ⟨m, rfl⟩ := Int.eq_ofNat_of_zero_le low
  have same : (UInt32.ofNat m).toNat = m := UInt32.toNat_ofNat_of_lt' (by rw [UInt32.size]; omega)
  rw [Int.toNat_natCast, same]
  exact member

/-- Members that state a command can be gathered. -/
theorem States.gathers {command : Command} (wellFormed : ∀ entry ∈ entries, entry.WellFormed)
    (states : States entries command) :
    ∃ draft, Gathers {} entries draft ∧ draft.command? = some command := by
  obtain ⟨needed, once, inRange⟩ := states
  obtain ⟨oneName, oneRssi, oneWindow⟩ := (once_iff wellFormed).mp once
  have named := eq_singleton oneName (mem_filterMap_name?.mpr (needed _ List.mem_cons_self))
  have readable : ∀ entry ∈ entries, entry.Readable := by
    refine fun entry member => ⟨inRange entry member, fun text ofName => ?_⟩
    have inside := List.mem_filterMap.mpr ⟨entry, member, ofName⟩
    rw [named, List.mem_singleton] at inside
    exact inside ▸ size_name_le command
  refine ⟨⟨_, _, _⟩, ⟨readable, (toList_head? oneName).symm, (toList_head? oneRssi).symm,
    (toList_head? oneWindow).symm⟩, command?_eq_some_iff.mpr ⟨congrArg List.head? named, ?_⟩⟩
  cases command with
  | setRssi n =>
    have only := eq_singleton oneRssi
      ((mem_filterMap_minRssi? inRange).mpr (needed _ (List.mem_cons_of_mem _ List.mem_cons_self)))
    simp [Draft.Answers, only]
  | setWindow n =>
    have only := eq_singleton oneWindow
      ((mem_filterMap_windowMs? inRange).mpr (needed _ (List.mem_cons_of_mem _ List.mem_cons_self)))
    simp [Draft.Answers, only]
  | _ => trivial

theorem Gathers.states {command : Command} (wellFormed : ∀ entry ∈ entries, entry.WellFormed)
    (gathers : Gathers {} entries draft) (answers : draft.command? = some command) :
    States entries command := by
  obtain ⟨readable, name, minRssi, windowMs⟩ := gathers
  obtain ⟨named, argument⟩ := command?_eq_some_iff.mp answers
  simp only [Option.toList_none, List.nil_append] at name minRssi windowMs
  have inRange entry (member : entry ∈ entries) := (readable entry member).1
  have once : ∀ key ∈ knownKeys, (entries.map Entry.key).count key ≤ 1 := by
    rw [once_iff wellFormed, name, minRssi, windowMs]
    exact ⟨Option.length_toList_le, Option.length_toList_le, Option.length_toList_le⟩
  refine ⟨?_, once, inRange⟩
  have first : .name command.name ∈ entries := mem_filterMap_name?.mp (by simp [name, named])
  refine List.forall_mem_cons.mpr ⟨first, ?_⟩
  cases command with
  | setRssi n =>
    have second : some n ∈ entries.filterMap Entry.minRssi? := by
      rw [minRssi, argument]
      exact List.mem_cons_self
    exact List.forall_mem_singleton.mpr ((mem_filterMap_minRssi? inRange).mp second)
  | setWindow n =>
    have second : some n ∈ entries.filterMap Entry.windowMs? := by
      rw [windowMs, argument]
      exact List.mem_cons_self
    exact List.forall_mem_singleton.mpr ((mem_filterMap_windowMs? inRange).mp second)
  | _ => exact List.forall_mem_nil _

end Drafts

end Proximity.Command
