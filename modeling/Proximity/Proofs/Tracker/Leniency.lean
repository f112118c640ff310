import Proximity.Proofs.Tracker.Presence
import Proximity.Proofs.Tracker.Shelter
import Mathlib.Data.List.Forall2
import Mathlib.Data.List.Nodup

/-! Trackers of regions that ask for less or are purged more mildly. Given the same sightings and
purges at the same times, such a tracker holds every region that a stricter one holds, and saw it no
earlier. -/

namespace Proximity

namespace Region

/-- The second region has the name of the first and asks for no other value than the first does. -/
structure Relaxes (strict lenient : Region) : Prop where
  name : lenient.name = strict.name
  id1 : lenient.id1 = none ∨ lenient.id1 = strict.id1
  id2 : lenient.id2 = none ∨ lenient.id2 = strict.id2
  id3 : lenient.id3 = none ∨ lenient.id3 = strict.id3
  address : lenient.address = none ∨ lenient.address = strict.address

theorem admits_of_eased {α : Type} [DecidableEq α] {expected expected' given : Option α}
    (eased : expected' = none ∨ expected' = expected) (admitted : admits expected given) :
    admits expected' given := by
  rcases eased with rfl | rfl
  · rfl
  · exact admitted

theorem Relaxes.holds {strict lenient : Region} {beacon : Beacon} (relaxes : strict.Relaxes lenient)
    (held : strict.holds beacon) : lenient.holds beacon := by
  simp only [Region.holds, Bool.and_eq_true] at held ⊢
  obtain ⟨⟨⟨id1, id2⟩, id3⟩, address⟩ := held
  exact ⟨⟨⟨admits_of_eased relaxes.id1 id1, admits_of_eased relaxes.id2 id2⟩,
    admits_of_eased relaxes.id3 id3⟩, admits_of_eased relaxes.address address⟩

section Lists

variable {regions regions' : List Region} (relaxed : List.Forall₂ Relaxes regions regions')

include relaxed

theorem map_name_of_relaxed : regions'.map (·.name) = regions.map (·.name) := by
  induction relaxed with
  | nil => rfl
  | cons relaxes _ ih => rw [List.map_cons, List.map_cons, relaxes.name, ih]

theorem exists_relaxed {strict : Region} (member : strict ∈ regions) :
    ∃ lenient, (strict, lenient) ∈ regions.zip regions' ∧ strict.Relaxes lenient := by
  obtain ⟨length, relaxes⟩ := List.forall₂_iff_zip.mp relaxed
  rw [← List.map_fst_zip (Nat.le_of_eq length)] at member
  obtain ⟨⟨_, lenient⟩, paired, rfl⟩ := List.mem_map.mp member
  exact ⟨lenient, paired, relaxes paired⟩

end Lists

end Region

namespace Tracker

theorem eq_of_name_eq {regions : List Region} {a b : Region}
    (distinct : (regions.map (·.name)).Nodup) (memberA : a ∈ regions) (memberB : b ∈ regions)
    (same : a.name = b.name) : a = b :=
  List.inj_on_of_nodup_map distinct memberA memberB same

theorem exists_region_of_kept {regions : List Region} {beacon : Beacon} {name : String}
    {subject : Subject} (stored : kept regions beacon (.region name) = some subject) :
    ∃ region ∈ regions, region.holds beacon ∧ region.name = name ∧ subject = .region region := by
  obtain ⟨region, isLast, rfl⟩ := Option.map_eq_some_iff.mp stored
  obtain ⟨member, passes⟩ := List.mem_filter.mp (List.mem_of_getLast? isLast)
  rw [Bool.and_eq_true, decide_eq_true_eq] at passes
  exact ⟨region, member, passes.1, passes.2, rfl⟩

/-- The regions of the second tracker relax those of the first, and each region that the first
holds is held by the second too, in its relaxed form and seen no earlier. -/
structure CoveredBy (strict lenient : Tracker) : Prop where
  mode : strict.mode = .region
  mode' : lenient.mode = .region
  relaxed : List.Forall₂ Region.Relaxes strict.regions lenient.regions
  distinct : (strict.regions.map (·.name)).Nodup
  live : ∀ key presence, strict.live.get? key = some presence →
    ∃ r r' later, (r, r') ∈ strict.regions.zip lenient.regions ∧ key = .region r.name ∧
      presence.subject = .region r ∧ lenient.live.get? key = some ⟨.region r', later⟩ ∧
      presence.lastSeen ≤ later

namespace CoveredBy

variable {strict lenient : Tracker} {beacon : Beacon} {now : Nanoseconds}
  (covered : strict.CoveredBy lenient)

include covered

theorem distinct' : (lenient.regions.map (·.name)).Nodup := by
  rw [Region.map_name_of_relaxed covered.relaxed]
  exact covered.distinct

/-- What a relaxed region is sighted of is stored under its name as that region. -/
theorem get?_track_of_holds (now : Nanoseconds) {r' : Region} (member : r' ∈ lenient.regions)
    (holds : r'.holds beacon) :
    (lenient.track now beacon).1.live.get? (.region r'.name) = some ⟨.region r', now⟩ := by
  have sights : Sights lenient.mode lenient.regions beacon (.region r'.name) :=
    ⟨covered.mode', r', member, holds, rfl⟩
  obtain ⟨subject, isKept, -⟩ := exists_kept sights
  obtain ⟨other, member', -, named, rfl⟩ := exists_region_of_kept isKept
  cases eq_of_name_eq covered.distinct' member' member named
  rw [get?_track_of_sights sights, isKept]
  rfl

theorem track (seen : strict.SeenBy now) :
    (strict.track now beacon).1.CoveredBy (lenient.track now beacon).1 := by
  refine ⟨mode_track.trans covered.mode, mode_track.trans covered.mode', ?_, ?_, ?_⟩
  · rw [regions_track, regions_track]
    exact covered.relaxed
  · rw [regions_track]
    exact covered.distinct
  intro key presence stored
  rw [regions_track, regions_track]
  by_cases sights : Sights strict.mode strict.regions beacon key
  · -- A region of the stricter tracker holds the beacon, and so does its relaxed form.
    obtain ⟨subject, isKept, -⟩ := exists_kept sights
    rw [get?_track_of_sights sights, isKept] at stored
    cases stored
    cases key with
    | beacon ids =>
      rw [covered.mode] at sights
      cases sights.1
    | region name =>
      obtain ⟨r, member, holds, rfl, rfl⟩ := exists_region_of_kept isKept
      obtain ⟨r', paired, relaxes⟩ := Region.exists_relaxed covered.relaxed member
      have live := covered.get?_track_of_holds now (List.of_mem_zip paired).2
        (relaxes.holds holds)
      rw [relaxes.name] at live
      exact ⟨r, r', now, paired, rfl, rfl, live, Nat.le_refl now⟩
  · -- The stricter tracker holds what it held, and the other one can only have seen it again.
    rw [get?_track_of_not_sights sights] at stored
    obtain ⟨r, r', later, paired, rfl, isRegion, live, le⟩ := covered.live key presence stored
    refine ⟨r, r', ?_⟩
    by_cases sights' : Sights lenient.mode lenient.regions beacon (.region r.name)
    · obtain ⟨-, other, member, holds, named⟩ := sights'
      have named' : r'.name = r.name :=
        (List.forall₂_iff_zip.mp covered.relaxed).2 paired |>.name
      cases eq_of_name_eq covered.distinct' member (List.of_mem_zip paired).2
        (named.trans named'.symm)
      have again := covered.get?_track_of_holds now member holds
      rw [named'] at again
      exact ⟨now, paired, rfl, isRegion, again, seen _ _ stored⟩
    · rw [get?_track_of_not_sights sights']
      exact ⟨later, paired, rfl, isRegion, live, le⟩

theorem purge (outlast : strict.expiration ≤ lenient.expiration) :
    (strict.purge now).1.CoveredBy (lenient.purge now).1 := by
  refine { covered with live := ?_ }
  intro key presence stored
  obtain ⟨stored, fresh⟩ := get?_purge_eq_some_iff.mp stored
  obtain ⟨r, r', later, paired, rfl, isRegion, live, le⟩ := covered.live key presence stored
  refine ⟨r, r', later, paired, rfl, isRegion, get?_purge_eq_some_iff.mpr ⟨live, ?_⟩, le⟩
  calc
    now - later ≤ now - presence.lastSeen := Nat.sub_le_sub_left le now
    _ ≤ strict.expiration := fresh
    _ ≤ lenient.expiration := outlast

end CoveredBy

/-- A sighting, a purge or the passing of time: what decides on presence under an expiration. -/
def Action.decides : Action → Bool
  | .track _ | .purge | .advance _ => true
  | .clear | .take | .setExpiration _ => false

/-- The actions that decide. -/
def course (actions : List Action) : List Action := actions.filter Action.decides

/-- At every purge that two runs of trackers of regions come to, the expiration in force in the
second is at least that in the first. -/
def Outlasts (first second : List Action) : Prop :=
  ∀ before after before' after', first = before ++ .purge :: after →
    second = before' ++ .purge :: after' → course before = course before' →
    inForce .region before ≤ inForce .region before'

variable {first second : List Action} {action : Action}

theorem Outlasts.of_append {rest rest' : List Action}
    (outlast : Outlasts (first ++ rest) (second ++ rest')) : Outlasts first second := by
  rintro before after before' after' rfl rfl same
  exact outlast before (after ++ rest) before' (after' ++ rest') (by simp) (by simp) same

/-- A run whose only purge comes last. -/
theorem eq_of_purge_last (front : List Action) {before after : List Action}
    (unpurged : .purge ∉ front) (split : front ++ [.purge] = before ++ .purge :: after) :
    before = front := by
  rcases concat_eq_append_cons split with ⟨same, -, -⟩ | ⟨middle, rfl, -⟩
  · exact same
  · exact absurd (by simp) unpurged

/-- The last action that decides stands before actions that do not. -/
theorem exists_of_course_eq_concat {decided : List Action}
    (h : course second = decided ++ [action]) : ∃ front idle, second = front ++ action :: idle ∧
      course front = decided ∧ ∀ other ∈ idle, ¬ other.decides := by
  obtain ⟨front, back, rfl, isFront, isBack⟩ := List.filter_eq_append_iff.mp h
  obtain ⟨idle, idle', rfl, before, -, after⟩ := List.filter_eq_cons_iff.mp isBack
  refine ⟨front ++ idle, idle', by simp, ?_, List.filter_eq_nil_iff.mp after⟩
  rw [course, List.filter_append, isFront, List.filter_eq_nil_iff.mpr before, List.append_nil]

namespace Session

variable {session session' : Session}

/-- Two sessions at the same time, with nothing seen in the future. -/
structure CoveredBy (session session' : Session) : Prop where
  now : session.now = session'.now
  tracker : session.tracker.CoveredBy session'.tracker
  seen : session.tracker.SeenBy session.now

namespace CoveredBy

variable (covered : CoveredBy session session')

include covered

theorem idle_left (idle : ¬ action.decides) : CoveredBy (session.step action) session' := by
  obtain ⟨now, tracker, seen⟩ := covered
  cases action with
  | clear | take | setExpiration _ => exact ⟨now, { tracker with }, seen⟩
  | track _ | purge | advance _ => exact absurd rfl idle

theorem idle_right (idle : ¬ action.decides) : CoveredBy session (session'.step action) := by
  obtain ⟨now, tracker, seen⟩ := covered
  cases action with
  | clear | take | setExpiration _ => exact ⟨now, { tracker with }, seen⟩
  | track _ | purge | advance _ => exact absurd rfl idle

theorem run_idle_right {idles : List Action} (idle : ∀ action ∈ idles, ¬ action.decides) :
    CoveredBy session (session'.run idles) := by
  induction idles generalizing session' with
  | nil => exact covered
  | cons action idles ih =>
    exact ih (covered.idle_right (idle action List.mem_cons_self))
      fun other member => idle other (List.mem_cons_of_mem _ member)

theorem both (decides : action.decides)
    (outlast : action = .purge → session.tracker.expiration ≤ session'.tracker.expiration) :
    CoveredBy (session.step action) (session'.step action) := by
  obtain ⟨time, strict⟩ := session
  obtain ⟨time', lenient⟩ := session'
  obtain ⟨rfl, tracker, seen⟩ := covered
  cases action with
  | track beacon => exact ⟨rfl, tracker.track seen, seen.track⟩
  | purge => exact ⟨rfl, tracker.purge (outlast rfl), seen.purge⟩
  | advance duration => exact ⟨rfl, tracker, seen.mono (Nat.le_add_right _ _)⟩
  | clear | take | setExpiration _ => cases decides

end CoveredBy

variable {regions regions' : List Region} (relaxed : List.Forall₂ Region.Relaxes regions regions')
  (distinct : (regions.map (·.name)).Nodup) (time : Nanoseconds)

include relaxed distinct

theorem start_covered : CoveredBy (start time .region regions) (start time .region regions') := by
  refine ⟨rfl, ⟨rfl, rfl, relaxed, distinct, ?_⟩, ?_⟩
  · intro key presence stored
    cases stored
  · intro key presence stored
    cases stored

theorem run_covered (same : course first = course second) (outlast : Outlasts first second) :
    CoveredBy ((start time .region regions).run first)
      ((start time .region regions').run second) := by
  -- From the end of the first run: its last action is idle, or the second run ends with it and
  -- idle actions.
  induction first using List.reverseRecOn generalizing second with
  | nil =>
    have idle := List.filter_eq_nil_iff.mp same.symm
    exact (start_covered relaxed distinct time).run_idle_right idle
  | append_singleton first action ih =>
    rw [run_concat]
    by_cases decides : action.decides
    · have concat : course (first ++ [action]) = course first ++ [action] := by
        simp [course, decides]
      obtain ⟨front, idle, rfl, isFront, isIdle⟩ :=
        exists_of_course_eq_concat (same.symm.trans concat)
      have before := ih isFront.symm outlast.of_append
      rw [run_append]
      refine CoveredBy.run_idle_right (before.both decides ?_) isIdle
      rintro rfl
      rw [run_start_expiration, run_start_expiration]
      exact outlast first [] front idle rfl rfl isFront.symm
    · have concat : course (first ++ [action]) = course first := by simp [course, decides]
      rw [← List.append_nil second] at outlast
      exact (ih (concat.symm.trans same) outlast.of_append).idle_left decides

end Session

/-- Regions that ask for less, under purges that are no stricter, are all present where those that
they relax are: each is stored under its name and was seen no earlier. -/
theorem live_of_relaxed {regions regions' : List Region}
    (relaxed : List.Forall₂ Region.Relaxes regions regions')
    (distinct : (regions.map (·.name)).Nodup) (time : Nanoseconds) {first second : List Action}
    (same : course first = course second) (outlast : Outlasts first second) :
    let strict := ((Session.start time .region regions).run first).tracker
    let lenient := ((Session.start time .region regions').run second).tracker
    ∀ key presence, strict.live.get? key = some presence →
      ∃ r r' later, (r, r') ∈ regions.zip regions' ∧ key = .region r.name ∧
        presence.subject = .region r ∧ lenient.live.get? key = some ⟨.region r', later⟩ ∧
        presence.lastSeen ≤ later := by
  intro strict lenient key presence stored
  have covered := (Session.run_covered relaxed distinct time same outlast).tracker
  have found := covered.live key presence stored
  rwa [Session.run_regions, Session.run_regions] at found

/-- The region of one identifier is kept as long as its expiration allows, and without the
identifier another beacon is a later sighting of it. -/
theorem live_of_relaxed_hall :
    let hall : Region := { name := "hall", id1 := some (.ofUInt16 7) }
    let seven : Beacon := ⟨[.ofUInt16 7], by simp, -59, -60, [], none, 0, 0, none, none, none⟩
    let eight : Beacon := { seven with ids := [.ofUInt16 8], ids_ne_nil := by simp }
    let common : List Action := [.track seven, .advance 2, .track eight, .advance 4]
    let first := .setExpiration 6 :: common ++ [.purge]
    let second := common ++ [.setExpiration 9, .purge]
    let strict := ((Session.start 0 .region [hall]).run first).tracker
    let lenient := ((Session.start 0 .region [{ name := "hall" }]).run second).tracker
    List.Forall₂ Region.Relaxes [hall] [{ name := "hall" }] ∧
      ([hall].map (·.name)).Nodup ∧ course first = course second ∧ Outlasts first second ∧
      (strict.live.get? (.region "hall")).map (·.lastSeen) = some 0 ∧
      ∀ key presence, strict.live.get? key = some presence →
        ∃ r r' later, (r, r') ∈ [hall].zip [{ name := "hall" }] ∧ key = .region r.name ∧
          presence.subject = .region r ∧ lenient.live.get? key = some ⟨.region r', later⟩ ∧
          presence.lastSeen ≤ later := by
  intro hall seven eight common first second strict lenient
  have relaxed : List.Forall₂ Region.Relaxes [hall] [{ name := "hall" }] :=
    .cons ⟨rfl, .inl rfl, .inl rfl, .inl rfl, .inl rfl⟩ .nil
  have distinct : ([hall].map (·.name)).Nodup := List.nodup_singleton _
  have same : course first = course second := rfl
  have outlast : Outlasts first second := by
    intro before after before' after' split split' _
    obtain rfl := eq_of_purge_last (.setExpiration 6 :: common) (by simp [common]) split
    obtain rfl := eq_of_purge_last (common ++ [.setExpiration 9]) (by simp [common]) split'
    decide
  exact ⟨relaxed, distinct, same, outlast, by decide +kernel,
    live_of_relaxed relaxed distinct 0 same outlast⟩

end Tracker

end Proximity
