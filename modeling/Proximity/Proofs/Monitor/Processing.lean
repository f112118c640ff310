import Proximity.Proofs.Monitor.Run
import Proximity.Proofs.SignalWindow.History
import Proximity.Proofs.Tracker.Sighting

/-! What one advertisement does to a monitor: nothing, or all that a sighting of its beacon calls
for, and nothing beyond that. -/

namespace Proximity

/-- The address of a beacon is that of the device it was received from. -/
theorem Layout.address_of_decode {layout : Layout} {data : Bytes} {reception : Reception}
    {beacon : Beacon} (h : layout.decode data reception = some beacon) :
    beacon.address = reception.address := by
  obtain ⟨align, -, h⟩ := Option.bind_eq_some_iff.mp h
  split at h
  · obtain ⟨ids, -, h⟩ := Option.bind_eq_some_iff.mp h
    obtain ⟨bare, -, h⟩ := Option.bind_eq_some_iff.mp h
    cases h
    rfl
  · cases h

/-- The readings that count are those held that still do, and the new one. -/
theorem SignalWindow.add_counts (window : SignalWindow) (now : Nanoseconds) (device : String)
    (rssi : Int16) :
    (window.add now device rssi).2 =
      Reading.recent window.length now ((window.readings.get? device).getD []) ++
        [⟨now, rssi⟩] := by
  simp [add, Reading.recent, List.filter_append]

namespace Monitor

/-- What a recognised advertisement does: the beacon in it is visible as it was returned, the
`monitored` regions that hold it are occupied as of now, whatever is new is pending as come, and the
signal strength is counted. Nothing else changes. -/
structure Records (before : Monitor) (monitored : List Region) (now : Nanoseconds)
    (received : Received) (beacon : Beacon) (after : Monitor) : Prop where
  visible : after.visibleBeacons.filter (·.ids = beacon.ids) = [beacon]
  sighted : after.objects.live.get? (.beacon beacon.ids) = some ⟨.beacon beacon, now⟩
  occupied : ∀ region ∈ monitored, region.holds beacon → ∃ last ∈ monitored,
    last.holds beacon ∧ last.name = region.name ∧
      after.regions.live.get? (.region region.name) = some ⟨.region last, now⟩
  entered : after.regions.entered = before.regions.entered ++
    before.regions.newcomers ((monitored.filter (·.holds beacon)).map .region)
  appeared : after.objects.entered = before.objects.entered ++
    if before.objects.IsNew (.beacon beacon.ids) then [.beacon beacon] else []
  address : beacon.address = some received.mac.text
  averaged : ∃ readings, readings = Reading.recent before.signal.length now
      ((before.signal.readings.get? received.mac.text).getD []) ++ [⟨now, received.rssi⟩] ∧
    after.signal.readings.get? received.mac.text = some readings ∧
    beacon.averageRssi = some (Reading.quotient readings)
  otherBeacons : ∀ key, key ≠ .beacon beacon.ids →
    after.objects.live.get? key = before.objects.live.get? key
  otherRegions : ∀ key, (∀ region ∈ monitored, region.holds beacon → key ≠ .region region.name) →
    after.regions.live.get? key = before.regions.live.get? key
  otherReadings : ∀ device, device ≠ received.mac.text →
    after.signal.readings.get? device = before.signal.readings.get? device
  rest : after =
    { before with
      signal := { before.signal with readings := after.signal.readings }
      regions := { before.regions with
        live := after.regions.live
        entered := after.regions.entered }
      objects := { before.objects with
        live := after.objects.live
        entered := after.objects.entered } }

/-- The trackers are set up to watch the regions and every beacon. -/
structure Watches (monitor : Monitor) (monitored : List Region) : Prop where
  regionMode : monitor.regions.mode = .region
  regions : monitor.regions.regions = monitored
  objectMode : monitor.objects.mode = .object
  objects : monitor.objects.regions = [{ name := Tracker.allBeaconsName }]
  keyed : monitor.objects.Keyed

namespace Watches

variable {monitor : Monitor} {monitored : List Region} (watches : monitor.Watches monitored)

include watches

theorem process (now : Nanoseconds) (received : Received) :
    (monitor.process now received).1.Watches monitored := by
  rcases Session.process_cases monitor now received with same | ⟨signal, beacon, same⟩ <;> rw [same]
  · exact watches
  · exact ⟨Tracker.mode_track.trans watches.regionMode, Tracker.regions_track.trans watches.regions,
      Tracker.mode_track.trans watches.objectMode, Tracker.regions_track.trans watches.objects,
      watches.keyed.track⟩

theorem feed (bytes : Bytes) : (monitor.feed bytes).1.Watches monitored :=
  Session.feed_invariant (motive := fun later => later.Watches monitored) bytes
    (fun _ => ⟨watches.regionMode, watches.regions, watches.objectMode, watches.objects,
      watches.keyed⟩)
    fun _ _ later => ⟨later.regionMode, later.regions, later.objectMode, later.objects, later.keyed⟩

omit watches

/-- Every beacon is tracked under its identifiers, and nothing else is. -/
theorem sights_objects_iff (watches : monitor.Watches monitored) {beacon : Beacon}
    {key : SubjectKey} : Tracker.Sights monitor.objects.mode monitor.objects.regions beacon key ↔
      key = .beacon beacon.ids := by
  rw [watches.objectMode, watches.objects]
  cases key with
  | region name => simp [Tracker.Sights]
  | beacon ids => simp [Tracker.Sights, Region.holds, Region.admits, eq_comm (b := ids)]

theorem subjectsOf_objects (watches : monitor.Watches monitored) (beacon : Beacon) :
    monitor.objects.subjectsOf beacon = [.beacon beacon] := by
  rw [Tracker.subjectsOf, watches.objectMode, watches.objects]
  simp [Region.holds, Region.admits]

theorem sights_regions_iff (watches : monitor.Watches monitored) {beacon : Beacon}
    {key : SubjectKey} : Tracker.Sights monitor.regions.mode monitor.regions.regions beacon key ↔
      ∃ region ∈ monitored, region.holds beacon ∧ key = .region region.name := by
  rw [watches.regionMode, watches.regions]
  cases key with
  | region name => simp [Tracker.Sights, eq_comm (a := name)]
  | beacon ids => simp [Tracker.Sights]

theorem subjectsOf_regions (watches : monitor.Watches monitored) (beacon : Beacon) :
    monitor.regions.subjectsOf beacon = (monitored.filter (·.holds beacon)).map .region := by
  rw [Tracker.subjectsOf, watches.regionMode, watches.regions]

/-- Of the regions with one name that hold the beacon the last is stored. -/
theorem exists_get?_regions (watches : monitor.Watches monitored) {beacon : Beacon}
    {region : Region} (now : Nanoseconds) (member : region ∈ monitored)
    (holds : region.holds beacon) :
    ∃ last ∈ monitored, last.holds beacon ∧ last.name = region.name ∧
      (monitor.regions.track now beacon).1.live.get? (.region region.name) =
        some ⟨.region last, now⟩ := by
  have sights := watches.sights_regions_iff.mpr ⟨region, member, holds, rfl⟩
  obtain ⟨subject, isKept, -⟩ := Tracker.exists_kept sights
  obtain ⟨last, isLast, rfl⟩ := Option.map_eq_some_iff.mp isKept
  have among := List.mem_filter.mp (List.mem_of_getLast? isLast)
  rw [watches.regions, Bool.and_eq_true, decide_eq_true_iff] at among
  refine ⟨last, among.1, among.2.1, among.2.2, ?_⟩
  rw [Tracker.get?_track_of_sights sights, isKept, Option.map_some]

end Watches

theorem address_of_decode {monitor : Monitor} {received : Received} {decoded : Beacon}
    (decodes : monitor.decode received = some decoded) :
    decoded.address = some received.mac.text := by
  obtain ⟨data, -, found⟩ := List.exists_of_findSome?_eq_some decodes
  obtain ⟨layout, -, reads⟩ := List.exists_of_findSome?_eq_some found
  exact Layout.address_of_decode reads

theorem Watches.process_records {monitor : Monitor} {monitored : List Region}
    (watches : monitor.Watches monitored) (now : Nanoseconds) (received : Received) :
    match monitor.process now received with
    | (after, none) => after = monitor
    | (after, some beacon) => monitor.Records monitored now received beacon after := by
  obtain same | ⟨decoded, beacon, decodes, isBeacon, same⟩ := process_eq monitor now received
  · rw [same]
  rw [same]
  have sighted : (monitor.objects.track now beacon).1.live.get? (.beacon beacon.ids) =
      some ⟨.beacon beacon, now⟩ :=
    Tracker.get?_track_of_sights (watches.sights_objects_iff.mpr rfl)
  have counts := monitor.signal.add_counts now received.mac.text received.rssi
  constructor
  case visible => exact watches.keyed.track.filter_visibleBeacons sighted
  case sighted => exact sighted
  case occupied => exact fun region member holds => watches.exists_get?_regions now member holds
  case entered => rw [Tracker.entered_track, watches.subjectsOf_regions]
  case appeared =>
    rw [Tracker.entered_track, watches.subjectsOf_objects, Tracker.newcomers_singleton]
    rfl
  case address =>
    rw [isBeacon, ← address_of_decode decodes]
  case averaged =>
    refine ⟨_, counts, ?_, ?_⟩
    · rw [SignalWindow.get?_add, if_pos rfl]
    · rw [isBeacon, Reading.mean_eq, if_neg (by rw [counts]; simp)]
  case otherBeacons =>
    exact fun key other => Tracker.get?_track_of_not_sights (mt watches.sights_objects_iff.mp other)
  case otherRegions =>
    refine fun key other => Tracker.get?_track_of_not_sights fun sights => ?_
    obtain ⟨region, member, holds, isKey⟩ := watches.sights_regions_iff.mp sights
    exact other region member holds isKey
  case otherReadings =>
    exact fun device other => by rw [SignalWindow.get?_add, if_neg other]
  case rest =>
    dsimp only
    rw [← Tracker.track_eq, ← Tracker.track_eq]
    rfl

namespace Session

theorem step_watches {session : Session} {monitored : List Region} {action : Action}
    (watches : session.monitor.Watches monitored) :
    (session.step action).monitor.Watches monitored := by
  obtain ⟨regionMode, regions, objectMode, objects, keyed⟩ := id watches
  cases action with
  | process received => exact watches.process session.now received
  | purge => exact ⟨regionMode, regions, objectMode, objects, keyed.purge⟩
  | feed bytes => exact watches.feed bytes
  | report | setConfig _ | command _ | advance _ =>
    exact ⟨regionMode, regions, objectMode, objects, keyed⟩

theorem run_watches (time : Nanoseconds) (layouts : List Layout) (regions : List Region)
    (config : Config) (actions : List Action) :
    ((start time layouts regions config).run actions).monitor.Watches regions := by
  refine run_invariant (motive := fun later => later.monitor.Watches regions)
    (fun _ _ => step_watches) ⟨rfl, rfl, rfl, rfl, ?_⟩
  intro key presence stored
  cases stored

/-- After any run an advertisement changes nothing if no beacon is returned for it, and otherwise
exactly what the sighting of that beacon calls for. -/
theorem process_all_or_nothing (time : Nanoseconds) (layouts : List Layout) (regions : List Region)
    (config : Config) (actions : List Action) (received : Received) :
    let session := (start time layouts regions config).run actions
    match session.monitor.process session.now received with
    | (after, none) => after = session.monitor
    | (after, some beacon) =>
      session.monitor.Records regions session.now received beacon after :=
  (run_watches time layouts regions config actions).process_records _ received

end Session

end Monitor

end Proximity
