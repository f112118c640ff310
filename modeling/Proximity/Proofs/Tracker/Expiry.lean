import Proximity.Proofs.Tracker.Balance
import Proximity.Proofs.Tracker.Snapshot

/-! A single purge. It takes out exactly what is stale, lists it as gone in the order of the keys
unless it is listed already, and leaves the rest of the tracker alone. To take the stale keys out
one by one, in order, comes to the same. What is left is not stale for another purge at the same
time, and neither is what was sighted just then. -/

namespace Proximity

namespace Table

variable {κ ν : Type} {table : Table κ ν} {keep keep' : κ → ν → Bool}

theorem filter_filter : (table.filter keep).filter keep' =
    table.filter fun key value => keep key value && keep' key value := by
  simp only [filter, List.filter_filter, Bool.and_comm]

variable [DecidableEq κ]

theorem filter_congr
    (same : ∀ key value, table.get? key = some value → keep key value = keep' key value) :
    table.filter keep = table.filter keep' := by
  have entries : (table.filter keep).entries = (table.filter keep').entries :=
    List.filter_congr fun entry member => same _ _ (get?_eq_some_iff.mpr member)
  rwa [Table.mk.injEq]

theorem filter_eq_self (all : ∀ key value, table.get? key = some value → keep key value) :
    table.filter keep = table := by
  obtain ⟨entries, nodup⟩ := table
  simp only [filter, Table.mk.injEq]
  exact List.filter_eq_self.mpr fun entry member => all _ _ (get?_eq_some_iff.mpr member)

end Table

namespace Tracker

/-- The entries that a purge takes out, in the order of the keys. -/
def stale (tracker : Tracker) (now : Nanoseconds) : List (SubjectKey × Presence) :=
  tracker.sorted.filter fun entry => tracker.isStale now entry.2

/-- The keys that are stale, as they stand in the table. -/
def staleKeys (tracker : Tracker) (now : Nanoseconds) : List SubjectKey :=
  (tracker.live.entries.filter fun entry => tracker.isStale now entry.2).map Prod.fst

/-- The tracker without the key, which is listed as gone if it was present. -/
def depart (tracker : Tracker) (key : SubjectKey) : Tracker :=
  match tracker.live.get? key with
  | none => tracker
  | some presence =>
    { tracker with
      live := tracker.live.erase key
      exited := note tracker.exited presence.subject }

/-- A purge at the time `now` takes the keys `removed` out of a tracker and leaves `purged`. -/
structure Expires (tracker : Tracker) (now : Nanoseconds) (removed : List SubjectKey)
    (purged : Tracker) : Prop where
  /-- What is left are the entries that are not too old, as they were. -/
  live : ∀ key presence, purged.live.get? key = some presence ↔
    tracker.live.get? key = some presence ∧ now - presence.lastSeen ≤ tracker.expiration
  removed_iff : ∀ key, key ∈ removed ↔ tracker.Present key ∧ ¬ purged.Present key
  ascending : removed.Pairwise (compare · · = .lt)
  exited_keys : purged.exited.map Subject.key =
    tracker.exited.map Subject.key ++ removed.filter (· ∉ tracker.exited.map Subject.key)
  /-- What is newly listed as gone is listed as it was stored. -/
  exited : ∃ gone, purged.exited = tracker.exited ++ gone ∧
    ∀ subject ∈ gone, (tracker.live.get? subject.key).map (·.subject) = some subject
  rest : purged = { tracker with live := purged.live, exited := purged.exited }

variable {tracker : Tracker} {now : Nanoseconds} {key : SubjectKey} {beacon : Beacon}
  {subjects more : List Subject} {presence : Presence} {entry : SubjectKey × Presence}
  {entries : List (SubjectKey × Presence)}

/-- Subjects with different keys are all listed that are not listed already. -/
theorem foldl_note_of_nodup (distinct : (more.map Subject.key).Nodup) :
    more.foldl note subjects =
      subjects ++ more.filter (·.key ∉ subjects.map Subject.key) := by
  induction more using List.reverseRecOn with
  | nil => exact (List.append_nil _).symm
  | append_singleton more subject ih =>
    rw [List.map_append, List.nodup_append] at distinct
    obtain ⟨earlier, -, apart⟩ := distinct
    have new : subject.key ∉ more.map Subject.key := fun member =>
      apart subject.key member subject.key (by simp) rfl
    have listed : (more.foldl note subjects).any (·.key = subject.key) ↔
        subject.key ∈ subjects.map Subject.key := by
      rw [← (or_iff_left new : _ ↔ subject.key ∈ subjects.map Subject.key), ← mem_keys_foldl_note]
      simp
    rw [List.foldl_concat, List.filter_append, ← List.append_assoc, ← ih earlier, note]
    by_cases before : subject.key ∈ subjects.map Subject.key
    · rw [if_pos (listed.mpr before), List.filter_cons_of_neg (by simpa using before),
        List.filter_nil, List.append_nil]
    · rw [if_neg (mt listed.mp before), List.filter_cons_of_pos (by simpa using before),
        List.filter_nil]

/-- No key stands twice in a snapshot, and each stands behind all smaller ones. -/
theorem pairwise_keys_sorted (tracker : Tracker) :
    (tracker.sorted.map Prod.fst).Pairwise (compare · · = .lt) := by
  have distinct : (tracker.sorted.map Prod.fst).Nodup :=
    (tracker.perm_sorted.map Prod.fst).nodup_iff.mpr tracker.live.nodup_keys
  rw [List.pairwise_map]
  refine (tracker.pairwise_sorted.and (List.pairwise_map.mp distinct)).imp ?_
  exact fun ⟨le, ne⟩ => compare_eq_lt_of_isLE_of_ne le ne

theorem mem_sorted : entry ∈ tracker.sorted ↔ tracker.live.get? entry.1 = some entry.2 := by
  rw [tracker.perm_sorted.mem_iff, Table.get?_eq_some_iff]

theorem get?_of_mem_stale (member : entry ∈ tracker.stale now) :
    tracker.live.get? entry.1 = some entry.2 :=
  mem_sorted.mp (List.mem_of_mem_filter member)

theorem purge_eq (tracker : Tracker) (now : Nanoseconds) :
    tracker.purge now =
      ({ tracker with
          live := tracker.live.filter fun _ presence => !tracker.isStale now presence
          exited := ((tracker.stale now).map (·.2.subject)).foldl note tracker.exited },
        (tracker.stale now).length) :=
  rfl

theorem Keyed.map_key_stale (keyed : tracker.Keyed) :
    ((tracker.stale now).map (·.2.subject)).map Subject.key = (tracker.stale now).map Prod.fst := by
  rw [List.map_map]
  exact List.map_congr_left fun entry member => keyed _ _ (get?_of_mem_stale member)

theorem ascending_stale (tracker : Tracker) (now : Nanoseconds) :
    ((tracker.stale now).map Prod.fst).Pairwise (compare · · = .lt) :=
  tracker.pairwise_keys_sorted.sublist (List.filter_sublist.map Prod.fst)

theorem nodup_keys_stale (tracker : Tracker) (now : Nanoseconds) :
    ((tracker.stale now).map Prod.fst).Nodup :=
  (tracker.ascending_stale now).imp fun less same => by simp [same] at less

theorem mem_keys_stale_iff_isStale (stored : tracker.live.get? key = some presence) :
    key ∈ (tracker.stale now).map Prod.fst ↔ tracker.isStale now presence = true := by
  refine ⟨fun member => ?_, fun old => ?_⟩
  · obtain ⟨entry, inside, rfl⟩ := List.mem_map.mp member
    obtain rfl : entry.2 = presence :=
      Option.some.inj ((get?_of_mem_stale inside).symm.trans stored)
    exact (List.mem_filter.mp inside).2
  · have inside : (key, presence) ∈ tracker.stale now :=
      List.mem_filter.mpr ⟨mem_sorted.mpr stored, old⟩
    exact List.mem_map_of_mem inside

/-- Keys that depart one after the other leave the rest of the table as it was. -/
theorem foldl_depart (stored : ∀ entry ∈ entries, tracker.live.get? entry.1 = some entry.2)
    (distinct : (entries.map Prod.fst).Nodup) :
    (entries.map Prod.fst).foldl depart tracker =
      { tracker with
        live := tracker.live.filter fun key _ => key ∉ entries.map Prod.fst
        exited := (entries.map (·.2.subject)).foldl note tracker.exited } := by
  induction entries generalizing tracker with
  | nil => simp [Table.filter]
  | cons entry entries ih =>
    obtain ⟨isFirst, areLater⟩ := List.forall_mem_cons.mp stored
    obtain ⟨apart, distinct⟩ := List.nodup_cons.mp distinct
    have departs : depart tracker entry.1 =
        { tracker with
          live := tracker.live.erase entry.1
          exited := note tracker.exited entry.2.subject } := by
      rw [depart, isFirst]
    -- What is to depart later is still stored as it was, for its key is not the one that departs.
    have stillStored : ∀ later ∈ entries,
        (tracker.live.erase entry.1).get? later.1 = some later.2 := fun later member => by
      have other : later.1 ≠ entry.1 := fun same => apart (same ▸ List.mem_map_of_mem member)
      rw [Table.get?_erase, if_neg other]
      exact areLater later member
    rw [List.map_cons, List.foldl_cons, departs, ih stillStored distinct]
    simp only [Table.erase, Table.filter_filter, List.map_cons, List.foldl_cons, List.mem_cons,
      not_or, Bool.decide_and]

theorem arranges_staleKeys (tracker : Tracker) (now : Nanoseconds) :
    Arranges ((tracker.stale now).map Prod.fst) (tracker.staleKeys now) where
  perm := (tracker.perm_sorted.filter _).map _
  ascending := (tracker.ascending_stale now).imp fun less => by rw [less]; rfl

/-- A purge sorts the stale keys, however they stand in the table, and then has one after the other
depart. -/
theorem purge_eq_foldl_depart (tracker : Tracker) (now : Nanoseconds) :
    let keys := (tracker.staleKeys now).mergeSort fun a b => (compare a b).isLE
    tracker.purge now = (keys.foldl depart tracker, keys.length) := by
  intro keys
  have sorted : keys = (tracker.stale now).map Prod.fst :=
    (arranges_mergeSort _).unique (tracker.arranges_staleKeys now)
  have left : (tracker.live.filter fun _ presence => !tracker.isStale now presence) =
      tracker.live.filter fun key _ => key ∉ (tracker.stale now).map Prod.fst :=
    Table.filter_congr fun key presence stored => by simp [mem_keys_stale_iff_isStale stored]
  rw [sorted, foldl_depart (fun entry => get?_of_mem_stale) (tracker.nodup_keys_stale now),
    List.length_map, purge_eq, left]

theorem Keyed.mem_keys_stale (keyed : tracker.Keyed) :
    key ∈ (tracker.stale now).map Prod.fst ↔
      tracker.Present key ∧ ¬ (tracker.purge now).1.Present key := by
  have departures : (⟨now, tracker⟩ : Session).departures .purge = _ :=
    Session.departures_purge keyed
  rw [← keyed.map_key_stale, stale, ← departures, Session.mem_departures]
  rfl

theorem Keyed.exited_purge (keyed : tracker.Keyed) :
    (tracker.purge now).1.exited =
      tracker.exited ++ ((tracker.stale now).map (·.2.subject)).filter
        (·.key ∉ tracker.exited.map Subject.key) := by
  have distinct : (((tracker.stale now).map (·.2.subject)).map Subject.key).Nodup := by
    rw [keyed.map_key_stale]
    exact tracker.nodup_keys_stale now
  exact foldl_note_of_nodup distinct

theorem Keyed.expires (keyed : tracker.Keyed) (now : Nanoseconds) :
    Expires tracker now ((tracker.stale now).map Prod.fst) (tracker.purge now).1 where
  live key presence := get?_purge_eq_some_iff
  removed_iff key := keyed.mem_keys_stale
  ascending := tracker.ascending_stale now
  exited_keys := by
    rw [keyed.exited_purge, List.map_append, ← keyed.map_key_stale]
    simp only [List.filter_map, Function.comp_def]
  exited := by
    refine ⟨_, keyed.exited_purge, fun subject member => ?_⟩
    obtain ⟨entry, inside, rfl⟩ := List.mem_map.mp (List.mem_of_mem_filter member)
    have stored := get?_of_mem_stale inside
    rw [keyed _ _ stored, stored]
    rfl
  rest := rfl

/-- What a purge leaves is not stale at that time, so that a second purge finds nothing. -/
theorem purge_purge (tracker : Tracker) (now : Nanoseconds) :
    (tracker.purge now).1.purge now = ((tracker.purge now).1, 0) := by
  have fresh : ∀ key presence, (tracker.purge now).1.live.get? key = some presence →
      (tracker.purge now).1.isStale now presence = false := by
    intro key presence stored
    exact decide_eq_false (Nat.not_lt.mpr (get?_purge_eq_some_iff.mp stored).2)
  have nothing : (tracker.purge now).1.stale now = [] :=
    List.filter_eq_nil_iff.mpr fun entry member => by
      rw [fresh entry.1 entry.2 (mem_sorted.mp member)]
      exact Bool.false_ne_true
  have kept : (tracker.purge now).1.live.filter
      (fun _ presence => !(tracker.purge now).1.isStale now presence) =
      (tracker.purge now).1.live :=
    Table.filter_eq_self fun key presence stored => by rw [fresh key presence stored]; rfl
  rw [purge_eq _ now, nothing, kept]
  rfl

/-- A sighting is as recent as can be, and so outlasts a purge at the same time. -/
theorem get?_purge_track (sights : Sights tracker.mode tracker.regions beacon key) :
    ((tracker.track now beacon).1.purge now).1.live.get? key =
      (tracker.track now beacon).1.live.get? key := by
  rw [get?_purge, get?_track_of_sights sights]
  obtain ⟨subject, isKept, -⟩ := exists_kept sights
  simp [isKept, isStale, Option.filter]

theorem track_snd_iff :
    (tracker.track now beacon).2 = true ↔
      ∃ key, Sights tracker.mode tracker.regions beacon key := by
  simp only [← mem_keys_subjectsOf]
  cases subjects : tracker.subjectsOf beacon <;> simp [track, subjects]

/-- After any run of a new tracker and with any expiration, a purge takes out exactly the keys that
were not sighted for longer than the expiration, and gives their number. They are listed as gone in
ascending order, unless they are already, and nothing else changes. A second purge at the same time
does nothing, and a purge at the time of a sighting takes out nothing that it is a sighting of. -/
theorem purge_exact (mode : Mode) (regions : List Region) (time : Nanoseconds)
    (actions : List Action) (expiration now : Nanoseconds) :
    let tracker := ((Session.start time mode regions).run actions).tracker.setExpiration expiration
    let (purged, count) := tracker.purge now
    (∃ removed, Expires tracker now removed purged ∧ count = removed.length) ∧
      purged.purge now = (purged, 0) ∧
      ∀ beacon,
        let (tracked, matched) := tracker.track now beacon
        (matched = true ↔ ∃ key, Sights tracker.mode tracker.regions beacon key) ∧
          ∀ key, Sights tracker.mode tracker.regions beacon key →
            tracked.Present key ∧
              (tracked.purge now).1.live.get? key = tracked.live.get? key := by
  intro tracker
  have keyed : tracker.Keyed := Session.run_keyed Session.start_keyed
  refine ⟨⟨_, keyed.expires now, (List.length_map _).symm⟩, purge_purge tracker now, ?_⟩
  refine fun beacon => ⟨@track_snd_iff _ now _, fun key sights => ⟨?_, get?_purge_track sights⟩⟩
  exact present_foldl_refresh.mpr (Or.inl (mem_keys_subjectsOf.mpr sights))

end Tracker

end Proximity
