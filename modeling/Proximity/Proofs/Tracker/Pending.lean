import Proximity.Proofs.Tracker.Run
import Mathlib.Data.List.DropRight

/-! What is pending for the next report. The keys that came and those that went since the last
report are listed, each once, in the order in which they first did so, however often they came and
went. -/

namespace Proximity.Tracker

/-- The actions up to the last report. -/
def upToReport (actions : List Action) : List Action := actions.rdropWhile (!·.isReport)

/-- The actions after the last report. -/
def sinceReport (actions : List Action) : List Action := actions.rtakeWhile (!·.isReport)

namespace Session

/-- The action makes the key present. -/
def Arrives (session : Session) (action : Action) (key : SubjectKey) : Prop :=
  ¬ session.tracker.Present key ∧ (session.step action).tracker.Present key

/-- The action ends the presence of the key. -/
def Departs (session : Session) (action : Action) (key : SubjectKey) : Prop :=
  session.tracker.Present key ∧ ¬ (session.step action).tracker.Present key

instance (session : Session) (action : Action) (key : SubjectKey) :
    Decidable (session.Arrives action key) := inferInstanceAs (Decidable (_ ∧ _))

instance (session : Session) (action : Action) (key : SubjectKey) :
    Decidable (session.Departs action key) := inferInstanceAs (Decidable (_ ∧ _))

/-- The keys that the action goes through, in its order: for a sighting that of the regions, and
otherwise that of the keys. -/
def visited (session : Session) : Action → List SubjectKey
  | .track beacon => (session.tracker.subjectsOf beacon).map Subject.key
  | _ => session.tracker.sorted.map Prod.fst

/-- The keys that the action makes present, in its order. -/
def arrivals (session : Session) (action : Action) : List SubjectKey :=
  (session.visited action).filter (session.Arrives action ·)

/-- The keys whose presence the action ends, in its order. -/
def departures (session : Session) (action : Action) : List SubjectKey :=
  (session.visited action).filter (session.Departs action ·)

/-- The keys that the actions bring about one after the other. -/
def log (keys : Session → Action → List SubjectKey) (session : Session) :
    List Action → List SubjectKey
  | [] => []
  | action :: later => keys session action ++ log keys (session.step action) later

end Session

/-- The tracker lists what came and what went since `reported`, and what it lists tells how presence
has changed from then on. -/
structure Accounts (reported : Session) (since : List Action) (tracker : Tracker) : Prop where
  entered_iff : ∀ key, key ∈ tracker.entered.map Subject.key ↔
    ∃ earlier action later, since = earlier ++ action :: later ∧
      (reported.run earlier).Arrives action key
  exited_iff : ∀ key, key ∈ tracker.exited.map Subject.key ↔
    ∃ earlier action later, since = earlier ++ action :: later ∧
      (reported.run earlier).Departs action key
  -- A key is listed where it first occurs in the log.
  entered_order : tracker.entered.map Subject.key = (reported.log Session.arrivals since).eraseDups
  exited_order : tracker.exited.map Subject.key = (reported.log Session.departures since).eraseDups
  entered_nodup : (tracker.entered.map Subject.key).Nodup
  exited_nodup : (tracker.exited.map Subject.key).Nodup
  came : ∀ key, key ∈ tracker.entered.map Subject.key → key ∉ tracker.exited.map Subject.key →
    ¬ reported.tracker.Present key ∧ tracker.Present key
  went : ∀ key, key ∉ tracker.entered.map Subject.key → key ∈ tracker.exited.map Subject.key →
    reported.tracker.Present key ∧ ¬ tracker.Present key
  stayed : ∀ key, key ∉ tracker.entered.map Subject.key → key ∉ tracker.exited.map Subject.key →
    (tracker.Present key ↔ reported.tracker.Present key)

section Lists

variable {keys : List SubjectKey} {subjects more : List Subject} {subject : Subject}

theorem eraseDups_concat {key : SubjectKey} :
    (keys ++ [key]).eraseDups = if key ∈ keys then keys.eraseDups else keys.eraseDups ++ [key] := by
  rw [List.eraseDups_append]
  by_cases member : key ∈ keys
  · simp [List.removeAll, member]
  · simp [List.removeAll, member, List.eraseDups_cons]

theorem nodup_eraseDups : keys.eraseDups.Nodup := by
  induction keys using List.reverseRecOn with
  | nil => exact List.nodup_nil
  | append_singleton keys key ih =>
    rw [eraseDups_concat]
    split
    · exact ih
    · rename_i fresh
      refine List.nodup_append.mpr ⟨ih, by simp, ?_⟩
      rintro a member b only rfl
      rw [List.mem_singleton.mp only] at member
      exact fresh (List.mem_eraseDups.mp member)

theorem map_key_note (same : subjects.map Subject.key = keys.eraseDups) :
    (note subjects subject).map Subject.key = (keys ++ [subject.key]).eraseDups := by
  have listed : subjects.any (·.key = subject.key) ↔ subject.key ∈ keys := by
    rw [← List.mem_eraseDups, ← same]
    simp
  rw [note, eraseDups_concat]
  by_cases member : subject.key ∈ keys
  · rw [if_pos (listed.mpr member), if_pos member, same]
  · rw [if_neg (mt listed.mp member), if_neg member, List.map_append, same]
    rfl

theorem map_key_foldl_note (same : subjects.map Subject.key = keys.eraseDups) :
    (more.foldl note subjects).map Subject.key = (keys ++ more.map Subject.key).eraseDups := by
  induction more using List.reverseRecOn with
  | nil => simpa using same
  | append_singleton more subject ih =>
    rw [List.foldl_concat, map_key_note ih, List.append_assoc, List.map_append]
    rfl

variable {tracker : Tracker} {now : Nanoseconds} {key : SubjectKey}

theorem present_foldl_refresh :
    (subjects.foldl (refresh now) tracker).Present key ↔
      key ∈ subjects.map Subject.key ∨ tracker.Present key := by
  rw [Present, Present, get?_foldl_refresh, Option.isSome_or, Bool.or_eq_true, Option.isSome_map,
    List.getLast?_isSome, ne_eq, List.filter_eq_nil_iff]
  simp

theorem entered_refresh :
    (refresh now tracker subject).entered =
      if tracker.Present subject.key then tracker.entered else note tracker.entered subject :=
  rfl

/-- A key that several of the subjects have enters with the first of them. -/
theorem map_key_entered_foldl_refresh (same : tracker.entered.map Subject.key = keys.eraseDups) :
    (subjects.foldl (refresh now) tracker).entered.map Subject.key =
      (keys ++ (subjects.map Subject.key).filter (¬ tracker.Present ·)).eraseDups := by
  induction subjects using List.reverseRecOn with
  | nil => simpa using same
  | append_singleton subjects subject ih =>
    rw [List.foldl_concat, List.map_append, List.filter_append, ← List.append_assoc,
      entered_refresh]
    -- The subject enters unless its key was present before the call or an earlier subject has it.
    by_cases before : tracker.Present subject.key
    · rw [if_pos (present_foldl_refresh.mpr (Or.inr before)), ih]
      simp [before]
    · have new : ([subject].map Subject.key).filter (¬ tracker.Present ·) = [subject.key] := by
        simp [before]
      rw [new]
      by_cases earlier : subject.key ∈ subjects.map Subject.key
      · rw [if_pos (present_foldl_refresh.mpr (Or.inl earlier)), ih, eraseDups_concat, if_pos]
        simp only [List.mem_append, List.mem_filter, decide_not, Bool.not_eq_true',
          decide_eq_false_iff_not]
        exact Or.inr ⟨earlier, before⟩
      · rw [if_neg (by simp [present_foldl_refresh, earlier, before]), map_key_note ih]

end Lists

namespace Session

variable {session : Session} {action : Action} {actions : List Action} {key : SubjectKey}
  {beacon : Beacon} {came went : List SubjectKey}

theorem present_track : (session.step (.track beacon)).tracker.Present key ↔
    key ∈ session.visited (.track beacon) ∨ session.tracker.Present key :=
  present_foldl_refresh

/-- Only a purge ends a presence. -/
theorem eq_purge_of_departs (departs : session.Departs action key) : action = .purge := by
  obtain ⟨before, after⟩ := departs
  cases action with
  | purge => rfl
  | track beacon => exact absurd (present_track.mpr (Or.inr before)) after
  | _ => exact absurd before after

/-- Only a sighting begins a presence. -/
theorem visited_of_arrives (arrives : session.Arrives action key) :
    ∃ beacon, action = .track beacon ∧ key ∈ session.visited action := by
  obtain ⟨before, after⟩ := arrives
  cases action with
  | track beacon => exact ⟨beacon, rfl, (present_track.mp after).resolve_right before⟩
  | purge =>
    obtain ⟨presence, stored⟩ := Option.isSome_iff_exists.mp after
    have held := (get?_purge_eq_some_iff.mp stored).1
    exact absurd (Option.isSome_iff_exists.mpr ⟨presence, held⟩) before
  | _ => exact absurd after before

theorem mem_keys_sorted {tracker : Tracker} :
    key ∈ tracker.sorted.map Prod.fst ↔ tracker.Present key := by
  simp [sorted, Present, Option.isSome_iff_exists, Table.get?_eq_some_iff]

theorem mem_arrivals : key ∈ session.arrivals action ↔ session.Arrives action key := by
  rw [arrivals, List.mem_filter, decide_eq_true_iff, and_iff_right_iff_imp]
  intro arrives
  obtain ⟨beacon, -, visited⟩ := visited_of_arrives arrives
  exact visited

theorem mem_departures : key ∈ session.departures action ↔ session.Departs action key := by
  rw [departures, List.mem_filter, decide_eq_true_iff, and_iff_right_iff_imp]
  intro departs
  cases eq_purge_of_departs departs
  exact mem_keys_sorted.mpr departs.1

theorem arrivals_track : session.arrivals (.track beacon) =
    ((session.tracker.subjectsOf beacon).map Subject.key).filter
      (¬ session.tracker.Present ·) := by
  refine List.filter_congr fun key member => ?_
  have present : (session.step (.track beacon)).tracker.Present key :=
    present_track.mpr (Or.inl member)
  simp [Arrives, present]

theorem arrivals_of_ne_track (other : ∀ beacon, action ≠ .track beacon) :
    session.arrivals action = [] := by
  refine List.eq_nil_iff_forall_not_mem.mpr fun key member => ?_
  obtain ⟨beacon, same, -⟩ := visited_of_arrives (mem_arrivals.mp member)
  exact other beacon same

theorem departures_of_ne_purge (other : action ≠ .purge) : session.departures action = [] :=
  List.eq_nil_iff_forall_not_mem.mpr fun _ member =>
    other (eq_purge_of_departs (mem_departures.mp member))

/-- What a purge takes out is what it departs with, in the order of the keys. -/
theorem departures_purge (keyed : session.tracker.Keyed) : session.departures .purge =
    ((session.tracker.sorted.filter fun entry => session.tracker.isStale session.now entry.2).map
      (·.2.subject)).map Subject.key := by
  rw [departures, show session.visited .purge = session.tracker.sorted.map Prod.fst from rfl,
    List.filter_map, List.map_map]
  have stored : ∀ entry ∈ session.tracker.sorted,
      session.tracker.live.get? entry.1 = some entry.2 := by
    intro entry member
    rw [sorted, List.mem_mergeSort] at member
    exact Table.get?_eq_some_iff.mpr member
  have same : session.tracker.sorted.filter
      ((fun key => decide (session.Departs .purge key)) ∘ Prod.fst) =
      session.tracker.sorted.filter fun entry => session.tracker.isStale session.now entry.2 := by
    refine List.filter_congr fun entry member => ?_
    simp [Departs, Present, step, get?_purge, stored entry member]
  rw [same]
  refine List.map_congr_left fun entry member => ?_
  exact (keyed _ _ (stored entry (List.mem_of_mem_filter member))).symm

/-- An action that is not a report adds to the lists what it brings and what it ends, unless it is
listed already. -/
theorem step_pending (keyed : session.tracker.Keyed) (quiet : ¬ action.isReport)
    (entered : session.tracker.entered.map Subject.key = came.eraseDups)
    (exited : session.tracker.exited.map Subject.key = went.eraseDups) :
    (session.step action).tracker.entered.map Subject.key =
        (came ++ session.arrivals action).eraseDups ∧
      (session.step action).tracker.exited.map Subject.key =
        (went ++ session.departures action).eraseDups := by
  cases action with
  | track beacon =>
    rw [arrivals_track, departures_of_ne_purge (by simp), List.append_nil]
    refine ⟨map_key_entered_foldl_refresh entered, ?_⟩
    rw [← exited]
    exact congrArg (List.map Subject.key) exited_track
  | purge =>
    rw [arrivals_of_ne_track (by simp), departures_purge keyed, List.append_nil]
    exact ⟨entered, map_key_foldl_note exited⟩
  | clear => exact absurd rfl quiet
  | take => exact absurd rfl quiet
  | setExpiration expiration =>
    rw [arrivals_of_ne_track (by simp), departures_of_ne_purge (by simp), List.append_nil,
      List.append_nil]
    exact ⟨entered, exited⟩
  | advance duration =>
    rw [arrivals_of_ne_track (by simp), departures_of_ne_purge (by simp), List.append_nil,
      List.append_nil]
    exact ⟨entered, exited⟩

theorem run_pending (keyed : session.tracker.Keyed) (quiet : ∀ action ∈ actions, ¬ action.isReport)
    (entered : session.tracker.entered.map Subject.key = came.eraseDups)
    (exited : session.tracker.exited.map Subject.key = went.eraseDups) :
    (session.run actions).tracker.entered.map Subject.key =
        (came ++ session.log arrivals actions).eraseDups ∧
      (session.run actions).tracker.exited.map Subject.key =
        (went ++ session.log departures actions).eraseDups := by
  induction actions generalizing session came went with
  | nil =>
    rw [log, log, List.append_nil, List.append_nil]
    exact ⟨entered, exited⟩
  | cons action later ih =>
    obtain ⟨nextEntered, nextExited⟩ :=
      step_pending keyed (quiet action List.mem_cons_self) entered exited
    rw [log, log, ← List.append_assoc, ← List.append_assoc]
    exact ih (step_keyed keyed) (fun other member => quiet other (List.mem_cons_of_mem _ member))
      nextEntered nextExited

theorem mem_log {keys : Session → Action → List SubjectKey} :
    key ∈ session.log keys actions ↔
      ∃ earlier action later, actions = earlier ++ action :: later ∧
        key ∈ keys (session.run earlier) action := by
  induction actions generalizing session with
  | nil => simp [log]
  | cons first actions ih =>
    rw [log, List.mem_append, ih]
    constructor
    · rintro (now | ⟨earlier, action, later, rfl, member⟩)
      · exact ⟨[], first, actions, rfl, now⟩
      · exact ⟨first :: earlier, action, later, rfl, member⟩
    · rintro ⟨earlier, action, later, split, member⟩
      cases earlier with
      | nil =>
        cases split
        exact Or.inl member
      | cons front earlier =>
        cases split
        exact Or.inr ⟨earlier, action, later, rfl, member⟩

/-- If what holds never ends, it holds at the end if it held at the start, in which case it does not
begin anew, or if it begins at some point. -/
theorem holds_run_of_never_ends (holds : Session → Prop)
    {begins ends : Session → Action → List SubjectKey}
    (begins_iff : ∀ session action,
      key ∈ begins session action ↔ ¬ holds session ∧ holds (session.step action))
    (ends_iff : ∀ session action,
      key ∈ ends session action ↔ holds session ∧ ¬ holds (session.step action))
    (never : key ∉ session.log ends actions) :
    (holds session → holds (session.run actions) ∧ key ∉ session.log begins actions) ∧
      (key ∈ session.log begins actions → holds (session.run actions)) := by
  induction actions generalizing session with
  | nil => exact ⟨fun start => ⟨start, by simp [log]⟩, by simp [log]⟩
  | cons action later ih =>
    rw [log, List.mem_append, not_or, ends_iff] at never
    obtain ⟨onward, begun⟩ := ih never.2
    rw [log, List.mem_append, begins_iff]
    have continues : holds session → holds (session.step action) := by
      intro start
      by_contra stops
      exact never.1 ⟨start, stops⟩
    refine ⟨fun start => ?_, ?_⟩
    · obtain ⟨atEnd, notAgain⟩ := onward (continues start)
      exact ⟨atEnd, not_or.mpr ⟨fun now => now.1 start, notAgain⟩⟩
    · rintro (now | afterwards)
      · exact (onward now.2).1
      · exact begun afterwards

theorem present_run_of_no_departure (never : key ∉ session.log departures actions) :
    (session.tracker.Present key →
        (session.run actions).tracker.Present key ∧ key ∉ session.log arrivals actions) ∧
      (key ∈ session.log arrivals actions → (session.run actions).tracker.Present key) :=
  holds_run_of_never_ends (·.tracker.Present key) (fun _ _ => mem_arrivals)
    (fun _ _ => mem_departures) never

theorem absent_run_of_no_arrival (never : key ∉ session.log arrivals actions) :
    (¬ session.tracker.Present key →
        ¬ (session.run actions).tracker.Present key ∧ key ∉ session.log departures actions) ∧
      (key ∈ session.log departures actions → ¬ (session.run actions).tracker.Present key) := by
  refine holds_run_of_never_ends (¬ ·.tracker.Present key) (fun _ _ => ?_) (fun _ _ => ?_) never
  · rw [mem_departures, Departs, not_not]
  · rw [mem_arrivals, Arrives, not_not]

end Session

/-- The lists account for every change of presence since a session in which nothing was pending. -/
theorem accounts_of_reported {reported : Session} {since : List Action}
    (keyed : reported.tracker.Keyed) (noneEntered : reported.tracker.entered = [])
    (noneExited : reported.tracker.exited = []) (quiet : ∀ action ∈ since, ¬ action.isReport) :
    Accounts reported since (reported.run since).tracker := by
  have atStart : [] = ([] : List SubjectKey).eraseDups := rfl
  obtain ⟨entered, exited⟩ := Session.run_pending keyed quiet
    (by rw [noneEntered, List.map_nil, atStart]) (by rw [noneExited, List.map_nil, atStart])
  rw [List.nil_append] at entered exited
  constructor
  · intro key
    rw [entered, List.mem_eraseDups, Session.mem_log]
    simp only [Session.mem_arrivals]
  · intro key
    rw [exited, List.mem_eraseDups, Session.mem_log]
    simp only [Session.mem_departures]
  · exact entered
  · exact exited
  · rw [entered]
    exact nodup_eraseDups
  · rw [exited]
    exact nodup_eraseDups
  · intro key came notGone
    rw [entered, List.mem_eraseDups] at came
    rw [exited, List.mem_eraseDups] at notGone
    obtain ⟨fromStart, begun⟩ := Session.present_run_of_no_departure notGone
    exact ⟨fun start => (fromStart start).2 came, begun came⟩
  · intro key notCome gone
    rw [entered, List.mem_eraseDups] at notCome
    rw [exited, List.mem_eraseDups] at gone
    obtain ⟨fromStart, begun⟩ := Session.absent_run_of_no_arrival notCome
    exact ⟨by_contra fun start => (fromStart start).2 gone, begun gone⟩
  · intro key notCome notGone
    rw [entered, List.mem_eraseDups] at notCome
    rw [exited, List.mem_eraseDups] at notGone
    refine ⟨fun atEnd => ?_, fun start => ?_⟩
    · by_contra start
      exact ((Session.absent_run_of_no_arrival notCome).1 start).1 atEnd
    · exact ((Session.present_run_of_no_departure notGone).1 start).1

theorem nothing_pending_upToReport (mode : Mode) (regions : List Region) (time : Nanoseconds)
    (actions : List Action) :
    let reported := (Session.start time mode regions).run (upToReport actions)
    reported.tracker.entered = [] ∧ reported.tracker.exited = [] := by
  induction actions using List.reverseRecOn with
  | nil => exact ⟨rfl, rfl⟩
  | append_singleton actions action ih =>
    cases report : action.isReport with
    | false =>
      rw [upToReport, List.rdropWhile_concat_pos _ _ _ (by simp [report])]
      exact ih
    | true =>
      rw [upToReport, List.rdropWhile_concat_neg _ _ _ (by simp [report]), Session.run_concat]
      cases action <;> first | exact ⟨rfl, rfl⟩ | cases report

/-- After any run of a new tracker its lists account for every change of presence since the last
report. -/
theorem accounts_since_report (mode : Mode) (regions : List Region) (time : Nanoseconds)
    (actions : List Action) :
    Accounts ((Session.start time mode regions).run (upToReport actions)) (sinceReport actions)
      ((Session.start time mode regions).run actions).tracker := by
  have quiet : ∀ action ∈ sinceReport actions, ¬ action.isReport := by
    intro action member
    simpa using List.mem_rtakeWhile_imp member
  have split : (Session.start time mode regions).run actions =
      ((Session.start time mode regions).run (upToReport actions)).run (sinceReport actions) := by
    rw [← Session.run_append, upToReport, sinceReport, List.rdropWhile_append_rtakeWhile]
  obtain ⟨noneEntered, noneExited⟩ := nothing_pending_upToReport mode regions time actions
  rw [split]
  exact accounts_of_reported (Session.run_keyed Session.start_keyed) noneEntered noneExited quiet

end Proximity.Tracker
