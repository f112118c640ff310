import Proximity.Proofs.Tracker.Run

/-! Presence is a matter of history. A key is present if no purge since its last sighting came too
late for it, and then what is stored is what that sighting was of. -/

namespace Proximity.Tracker

/-- A sighting of the beacon, followed by the actions of `after`, is the last one of the key. -/
structure LastSighting (mode : Mode) (regions : List Region) (key : SubjectKey) (beacon : Beacon)
    (after : List Action) : Prop where
  sights : Sights mode regions beacon key
  last : ∀ later, .track later ∈ after → ¬ Sights mode regions later key

/-- No purge of `after` comes when the sighting is longer ago than the expiration that is then in
force. -/
def Lasts (mode : Mode) (time : Nanoseconds) (before : List Action) (beacon : Beacon)
    (after : List Action) : Prop :=
  ∀ middle later, after = middle ++ .purge :: later →
    ¬ inForce mode (before ++ .track beacon :: middle) <
      clock time (before ++ .track beacon :: middle) - clock time before

variable {mode : Mode} {regions : List Region} {time : Nanoseconds} {key : SubjectKey}
  {beacon : Beacon} {before after actions : List Action} {action : Action}

/-- In a list that ends with `a`, an element is that one or stands further in front. -/
theorem concat_eq_append_cons {α : Type} {l front back : List α} {a x : α}
    (split : l ++ [a] = front ++ x :: back) :
    (front = l ∧ x = a ∧ back = []) ∨
      ∃ middle, l = front ++ x :: middle ∧ back = middle ++ [a] := by
  rcases List.eq_nil_or_concat' back with rfl | ⟨middle, last, rfl⟩
  · obtain ⟨rfl, same⟩ := List.append_inj' split rfl
    exact Or.inl ⟨rfl, (List.cons.inj same).1.symm, rfl⟩
  · rw [← List.cons_append, ← List.append_assoc] at split
    obtain ⟨rfl, same⟩ := List.append_inj' split rfl
    exact Or.inr ⟨middle, rfl, by rw [same]⟩

theorem LastSighting.unique {beacon' : Beacon} {before' after' : List Action}
    (last : LastSighting mode regions key beacon after)
    (last' : LastSighting mode regions key beacon' after')
    (same : before ++ .track beacon :: after = before' ++ .track beacon' :: after') :
    before = before' ∧ beacon = beacon' := by
  rcases List.append_eq_append_iff.mp same with ⟨gap, longer, rest⟩ | ⟨gap, longer, rest⟩
  · cases gap with
    | nil =>
      cases rest
      exact ⟨by simpa using longer.symm, rfl⟩
    | cons first gap =>
      obtain ⟨rfl, rfl⟩ := List.cons.inj rest
      exact absurd last'.sights (last.last beacon' (by simp))
  · cases gap with
    | nil =>
      cases rest
      exact ⟨by simpa using longer, rfl⟩
    | cons first gap =>
      obtain ⟨rfl, rfl⟩ := List.cons.inj rest
      exact absurd last.sights (last'.last beacon (by simp))

theorem lastSighting_concat :
    LastSighting mode regions key beacon (after ++ [action]) ↔
      LastSighting mode regions key beacon after ∧
        ∀ later, action = .track later → ¬ Sights mode regions later key := by
  constructor
  · rintro ⟨sights, last⟩
    refine ⟨⟨sights, fun later member => last later (List.mem_append_left _ member)⟩, ?_⟩
    rintro later rfl
    exact last later (by simp)
  · rintro ⟨⟨sights, last⟩, unseen⟩
    refine ⟨sights, fun later member => ?_⟩
    rcases List.mem_append.mp member with earlier | now
    · exact last later earlier
    · exact unseen later (List.mem_singleton.mp now).symm

theorem lasts_concat :
    Lasts mode time before beacon (after ++ [action]) ↔
      Lasts mode time before beacon after ∧
        (action = .purge → ¬ inForce mode (before ++ .track beacon :: after) <
          clock time (before ++ .track beacon :: after) - clock time before) := by
  constructor
  · intro lasts
    refine ⟨?_, ?_⟩
    · rintro middle later rfl
      exact lasts middle (later ++ [action]) (by simp)
    · rintro rfl
      exact lasts after [] rfl
  · rintro ⟨lasts, purged⟩ middle later split
    rcases concat_eq_append_cons split with ⟨rfl, isPurge, -⟩ | ⟨rest, earlier, -⟩
    · exact purged isPurge.symm
    · exact lasts middle rest earlier

/-- What the history up to now says is stored under the key. -/
def Recorded (mode : Mode) (regions : List Region) (time : Nanoseconds) (actions : List Action)
    (key : SubjectKey) (presence : Presence) : Prop :=
  ∃ before beacon after, actions = before ++ .track beacon :: after ∧
    LastSighting mode regions key beacon after ∧ Lasts mode time before beacon after ∧
    presence.lastSeen = clock time before ∧ kept regions beacon key = some presence.subject

variable {presence : Presence}

/-- A sighting makes all that came before it irrelevant. -/
theorem recorded_concat_of_sights (sights : Sights mode regions beacon key) :
    Recorded mode regions time (actions ++ [.track beacon]) key presence ↔
      presence.lastSeen = clock time actions ∧ kept regions beacon key = some presence.subject := by
  constructor
  · rintro ⟨before, beacon', after, split, last, -, seen, stored⟩
    rcases concat_eq_append_cons split with ⟨rfl, same, -⟩ | ⟨rest, -, rfl⟩
    · cases same
      exact ⟨seen, stored⟩
    · exact absurd sights ((lastSighting_concat.mp last).2 beacon rfl)
  · rintro ⟨seen, stored⟩
    refine ⟨actions, beacon, [], rfl, ⟨sights, by simp⟩, ?_, seen, stored⟩
    intro middle later impossible
    cases middle <;> cases impossible

/-- After any other action the record is what it was, unless a purge drops it. -/
theorem recorded_concat
    (unseen : ∀ beacon, action = .track beacon → ¬ Sights mode regions beacon key) :
    Recorded mode regions time (actions ++ [action]) key presence ↔
      Recorded mode regions time actions key presence ∧
        (action = .purge → ¬ inForce mode actions < clock time actions - presence.lastSeen) := by
  constructor
  · rintro ⟨before, beacon, after, split, last, lasts, seen, stored⟩
    rcases concat_eq_append_cons split with ⟨-, same, -⟩ | ⟨rest, rfl, rfl⟩
    · exact absurd last.sights (unseen beacon same.symm)
    · obtain ⟨earlier, purged⟩ := lasts_concat.mp lasts
      rw [seen]
      exact ⟨⟨before, beacon, rest, rfl, (lastSighting_concat.mp last).1, earlier, seen, stored⟩,
        purged⟩
  · rintro ⟨⟨before, beacon, after, rfl, last, lasts, seen, stored⟩, purged⟩
    rw [seen] at purged
    exact ⟨before, beacon, after ++ [action], by simp, lastSighting_concat.mpr ⟨last, unseen⟩,
      lasts_concat.mpr ⟨lasts, purged⟩, seen, stored⟩

/-- One action keeps the table in step with the record. -/
theorem get?_step {session : Session} (sameMode : session.tracker.mode = mode)
    (sameRegions : session.tracker.regions = regions) (shows : session.now = clock time actions)
    (within : session.tracker.expiration = inForce mode actions)
    (agree : session.tracker.live.get? key = some presence ↔
      Recorded mode regions time actions key presence) :
    (session.step action).tracker.live.get? key = some presence ↔
      Recorded mode regions time (actions ++ [action]) key presence := by
  subst sameMode sameRegions
  cases action with
  | track beacon =>
    by_cases sights : Sights session.tracker.mode session.tracker.regions beacon key
    · obtain ⟨subject, stored, -⟩ := exists_kept sights
      rw [recorded_concat_of_sights sights, Session.step, get?_track_of_sights sights, stored,
        ← shows]
      constructor
      · intro same
        cases same
        exact ⟨rfl, rfl⟩
      · rintro ⟨seen, same⟩
        rw [Option.map_some, Option.some.inj same, ← seen]
    · rw [recorded_concat (by rintro _ ⟨⟩; exact sights), Session.step,
        get?_track_of_not_sights sights, agree]
      simp
  | purge =>
    rw [recorded_concat (by simp), Session.step, get?_purge_eq_some_iff, agree, ← shows, ← within,
      Nat.not_lt]
    simp
  | clear => rw [recorded_concat (by simp)]; simpa [Session.step, clear] using agree
  | take => rw [recorded_concat (by simp)]; simpa [Session.step, take, clear] using agree
  | setExpiration expiration =>
    rw [recorded_concat (by simp)]; simpa [Session.step, setExpiration] using agree
  | advance duration => rw [recorded_concat (by simp)]; simpa [Session.step] using agree

theorem get?_eq_some_iff_recorded :
    ((Session.start time mode regions).run actions).tracker.live.get? key = some presence ↔
      Recorded mode regions time actions key presence := by
  -- From the end of the run: a later action can only be a sighting that supersedes the record, a
  -- purge that drops it, or without effect on it.
  induction actions using List.reverseRecOn with
  | nil =>
    refine ⟨fun impossible => (by cases impossible), ?_⟩
    rintro ⟨before, beacon, after, split, -⟩
    cases before <;> cases split
  | append_singleton actions action ih =>
    rw [Session.run_concat]
    exact get?_step Session.run_mode Session.run_regions Session.run_start_now
      Session.run_start_expiration ih

/-- After any run of a new tracker a key is present exactly if it was sighted and no purge since the
last sighting came when that was longer ago than the expiration then in force. What is stored is the
time of the last sighting, with the beacon sighted or the last region of the name to hold it. -/
theorem present_iff_lastSighting (mode : Mode) (regions : List Region) (time : Nanoseconds)
    (actions : List Action) (key : SubjectKey) :
    let tracker := ((Session.start time mode regions).run actions).tracker
    (tracker.Present key ↔
      ∃ before beacon after, actions = before ++ .track beacon :: after ∧
        LastSighting mode regions key beacon after ∧ Lasts mode time before beacon after) ∧
    ∀ presence, tracker.live.get? key = some presence →
      ∀ before beacon after, actions = before ++ .track beacon :: after →
        LastSighting mode regions key beacon after →
          presence.lastSeen = clock time before ∧
            kept regions beacon key = some presence.subject := by
  refine ⟨⟨?_, ?_⟩, ?_⟩
  · intro present
    obtain ⟨presence, stored⟩ := Option.isSome_iff_exists.mp present
    obtain ⟨before, beacon, after, split, last, lasts, -⟩ := get?_eq_some_iff_recorded.mp stored
    exact ⟨before, beacon, after, split, last, lasts⟩
  · rintro ⟨before, beacon, after, split, last, lasts⟩
    obtain ⟨subject, isKept, -⟩ := exists_kept last.sights
    refine Option.isSome_iff_exists.mpr ⟨⟨subject, clock time before⟩, ?_⟩
    exact get?_eq_some_iff_recorded.mpr ⟨before, beacon, after, split, last, lasts, rfl, isKept⟩
  · intro presence stored before beacon after split last
    obtain ⟨before', beacon', after', split', last', -, seen, isKept⟩ :=
      get?_eq_some_iff_recorded.mp stored
    obtain ⟨rfl, rfl⟩ := last'.unique last (split'.symm.trans split)
    exact ⟨seen, isKept⟩

end Proximity.Tracker
