import Proximity.Proofs.Tracker.View

/-! The order in which a tracker keeps its table. No operation and nothing that is shown depends on
it: a purge goes through what is stale in the order of the keys, and everything else looks up
keys. -/

namespace Proximity

namespace Table

variable {κ ν : Type} [DecidableEq κ] {table table' : Table κ ν}

/-- Tables that keep the same entries are those that hold the same under every key. -/
theorem perm_entries_iff :
    table.entries.Perm table'.entries ↔ ∀ key, table.get? key = table'.get? key := by
  refine ⟨fun perm key => ?_, perm_entries⟩
  ext value
  rw [get?_eq_some_iff, get?_eq_some_iff, perm.mem_iff]

end Table

namespace Tracker

/-- The same tracker but for the order in which the table keeps its entries. -/
structure Reordered (tracker tracker' : Tracker) : Prop where
  mode : tracker'.mode = tracker.mode
  regions : tracker'.regions = tracker.regions
  expiration : tracker'.expiration = tracker.expiration
  entered : tracker'.entered = tracker.entered
  exited : tracker'.exited = tracker.exited
  live : tracker'.live.entries.Perm tracker.live.entries

/-- What is returned to who acts. -/
inductive Answer
  | occupied (held : Bool)
  | expired (count : Nat)
  | changes (entered exited : List Subject)

/-- What an action returns. -/
def Session.answer? (session : Session) : Action → Option Answer
  | .track beacon => some (.occupied (session.tracker.track session.now beacon).2)
  | .purge => some (.expired (session.tracker.purge session.now).2)
  | .take => some (.changes session.tracker.take.2.1 session.tracker.take.2.2)
  | .clear | .setExpiration _ | .advance _ => none

variable {tracker tracker' : Tracker} {beacon : Beacon} {subject : Subject}
  {subjects : List Subject} {now : Nanoseconds}

namespace Reordered

theorem get?_eq (reordered : tracker.Reordered tracker') (key : SubjectKey) :
    tracker'.live.get? key = tracker.live.get? key :=
  Table.perm_entries_iff.mp reordered.live key

theorem refresh (reordered : tracker.Reordered tracker') :
    (refresh now tracker subject).Reordered (Tracker.refresh now tracker' subject) where
  mode := reordered.mode
  regions := reordered.regions
  expiration := reordered.expiration
  entered := by
    simp only [Tracker.refresh, reordered.get?_eq, reordered.entered]
  exited := reordered.exited
  live := by
    refine Table.perm_entries_iff.mpr fun key => ?_
    rw [Tracker.refresh, Tracker.refresh, Table.get?_insert, Table.get?_insert, reordered.get?_eq]

theorem foldl_refresh (reordered : tracker.Reordered tracker') :
    (subjects.foldl (Tracker.refresh now) tracker).Reordered
      (subjects.foldl (Tracker.refresh now) tracker') := by
  induction subjects generalizing tracker tracker' with
  | nil => exact reordered
  | cons subject subjects ih => exact ih reordered.refresh

theorem subjectsOf_eq (reordered : tracker.Reordered tracker') :
    tracker'.subjectsOf beacon = tracker.subjectsOf beacon := by
  rw [subjectsOf, subjectsOf, reordered.mode, reordered.regions]

theorem track (reordered : tracker.Reordered tracker') :
    (tracker.track now beacon).1.Reordered (tracker'.track now beacon).1 := by
  rw [Tracker.track, Tracker.track, reordered.subjectsOf_eq]
  exact reordered.foldl_refresh

theorem stale_eq (reordered : tracker.Reordered tracker') :
    tracker'.stale now = tracker.stale now := by
  have same : tracker'.isStale now = tracker.isStale now := by
    funext presence
    rw [isStale, isStale, reordered.expiration]
  rw [stale, stale, sorted_congr reordered.get?_eq, same]

theorem purge (reordered : tracker.Reordered tracker') :
    (tracker.purge now).1.Reordered (tracker'.purge now).1 where
  mode := reordered.mode
  regions := reordered.regions
  expiration := reordered.expiration
  entered := reordered.entered
  exited := by rw [purge_eq, purge_eq, reordered.stale_eq, reordered.exited]
  live := by
    refine Table.perm_entries_iff.mpr fun key => ?_
    ext presence
    rw [get?_purge_eq_some_iff, get?_purge_eq_some_iff, reordered.get?_eq, reordered.expiration]

theorem view_eq (reordered : tracker.Reordered tracker') : tracker'.view = tracker.view := by
  rw [view, view, reordered.mode, reordered.regions, reordered.expiration, reordered.entered,
    reordered.exited, liveCount_congr reordered.get?_eq, visibleBeacons_congr reordered.get?_eq,
    visibleRegions_congr reordered.get?_eq]

end Reordered

namespace Session

variable {session session' : Session} {action : Action} {actions : List Action}

/-- Two sessions at the same time whose trackers differ only in the order of their tables. -/
structure Reordered (session session' : Session) : Prop where
  now : session'.now = session.now
  tracker : session.tracker.Reordered session'.tracker

theorem Reordered.step (reordered : session.Reordered session') :
    (session.step action).Reordered (session'.step action) := by
  obtain ⟨now, tracker⟩ := session
  obtain ⟨now', tracker'⟩ := session'
  obtain ⟨rfl, reordered⟩ := reordered
  cases action with
  | track beacon => exact ⟨rfl, reordered.track⟩
  | purge => exact ⟨rfl, reordered.purge⟩
  | clear | take => exact ⟨rfl, { reordered with entered := rfl, exited := rfl }⟩
  | setExpiration expiration => exact ⟨rfl, { reordered with expiration := rfl }⟩
  | advance duration => exact ⟨rfl, reordered⟩

theorem Reordered.run (reordered : session.Reordered session') :
    (session.run actions).Reordered (session'.run actions) := by
  induction actions using List.reverseRecOn with
  | nil => exact reordered
  | append_singleton actions action ih =>
    rw [run_concat, run_concat]
    exact ih.step

theorem Reordered.answer?_eq (reordered : session.Reordered session') :
    session'.answer? action = session.answer? action := by
  obtain ⟨now, reordered⟩ := reordered
  cases action with
  | track beacon => rw [answer?, answer?, track, track, reordered.subjectsOf_eq]
  | purge => rw [answer?, answer?, purge_eq, purge_eq, now, reordered.stale_eq]
  | take => rw [answer?, answer?, take, take, reordered.entered, reordered.exited]
  | clear | setExpiration _ | advance _ => rfl

end Session

/-- After any run of a new tracker a tracker of beacons shows all that is present as beacons, each
with other identifiers and in the order of those, and a tracker of regions as regions that it was
given, each by another name and in the order of the names. Everything is stored under its own key.
If the table had its entries in another order, nothing that is returned or shown from then on would
be different, and the table would differ only in the order of its entries. -/
theorem views_canonical (mode : Mode) (regions : List Region) (time : Nanoseconds)
    (actions : List Action) :
    let session := (Session.start time mode regions).run actions
    (mode = .object → session.tracker.view.ListsBeacons) ∧
    (mode = .region → session.tracker.view.ListsRegions ∧ session.tracker.view.regions = regions) ∧
    session.tracker.Keyed ∧
    ∀ table : Table SubjectKey Presence, table.entries.Perm session.tracker.live.entries →
      ∀ later : List Action,
        let first := session.run later
        let second := ({ session with
          tracker := { session.tracker with live := table } } : Session).run later
        first.Reordered second ∧ second.tracker.view = first.tracker.view ∧
          ∀ action, second.answer? action = first.answer? action := by
  intro session
  have keyed : session.tracker.Keyed := Session.run_keyed Session.start_keyed
  have ofKind : session.tracker.OfKind := Session.run_ofKind Session.start_ofKind
  have sameMode : session.tracker.mode = mode := Session.run_mode
  have sameRegions : session.tracker.regions = regions := Session.run_regions
  refine ⟨fun object => ?_, fun region => ⟨?_, sameRegions⟩, keyed, fun table perm later => ?_⟩
  · exact listsBeacons keyed ofKind (sameMode.trans object)
  · exact listsRegions keyed ofKind (sameMode.trans region)
  · have start : session.Reordered { session with
        tracker := { session.tracker with live := table } } :=
      ⟨rfl, rfl, rfl, rfl, rfl, rfl, perm⟩
    have reordered : (session.run later).Reordered _ := start.run
    exact ⟨reordered, reordered.tracker.view_eq, fun action => reordered.answer?_eq⟩

/-- A table that is turned round before what it holds is purged, and two regions that are sighted
together. -/
theorem views_canonical_reversed :
    let beacon (minor : UInt16) : Beacon :=
      ⟨[.ofUInt16 minor], by simp, -59, -60, [], none, 0, 0, none, none, none⟩
    let sighted : List Action :=
      [.track (beacon 9), .track (beacon 3), .setExpiration 5, .advance 6]
    let session := (Session.start 0 .object [{ name := "all" }]).run sighted
    let reversed : Table SubjectKey Presence :=
      { entries := session.tracker.live.entries.reverse
        nodup_keys := ((List.reverse_perm _).map Prod.fst).nodup_iff.mpr
          session.tracker.live.nodup_keys }
    let later : List Action := [.purge, .track (beacon 3)]
    let first := session.run later
    let second :=
      ({ session with tracker := { session.tracker with live := reversed } } : Session).run later
    let occupied := (Session.start 0 .region [{ name := "hall" }, { name := "attic" }]).run
      [.track (beacon 9)]
    session.tracker.view.ListsBeacons ∧
    (session.tracker.liveCount = 2 ∧ reversed.entries.Perm session.tracker.live.entries ∧
      first.Reordered second ∧ second.tracker.view = first.tracker.view ∧
      second.answer? .take = first.answer? .take) ∧
    (occupied.tracker.liveCount = 2 ∧ occupied.tracker.view.ListsRegions) := by
  intro beacon sighted session reversed later first second occupied
  obtain ⟨listed, -, -, free⟩ := views_canonical .object [{ name := "all" }] 0 sighted
  obtain ⟨-, listed', -, -⟩ := views_canonical .region [{ name := "hall" }, { name := "attic" }] 0
    [.track (beacon 9)]
  have perm : reversed.entries.Perm session.tracker.live.entries := List.reverse_perm _
  obtain ⟨reordered, view, answers⟩ := free reversed perm later
  exact ⟨listed rfl, ⟨by decide +kernel, perm, reordered, view, answers .take⟩,
    by decide +kernel, (listed' rfl).1⟩

end Tracker

end Proximity
