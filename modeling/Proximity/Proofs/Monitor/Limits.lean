import Proximity.Proofs.Monitor.Run

/-! The limits of a monitor. The settings are kept once and their limits again by each part that
goes by them, and the two agree in every state. -/

namespace Proximity.Monitor

/-- Every part of the monitor goes by the limit that the settings name for it. -/
structure Tuned (monitor : Monitor) : Prop where
  signal : monitor.signal.length = monitor.config.rssiWindow
  regions : monitor.regions.expiration = monitor.config.regionExpiration
  objects : monitor.objects.expiration = monitor.config.objectExpiration

theorem tuned_ofLayouts (layouts : List Layout) (regions : List Region) (config : Config) :
    (ofLayouts layouts regions config).Tuned := ⟨rfl, rfl, rfl⟩

theorem tuned_setConfig (monitor : Monitor) (config : Config) : (monitor.setConfig config).Tuned :=
  ⟨rfl, rfl, rfl⟩

namespace Tuned

variable {monitor : Monitor} {now : Nanoseconds}

theorem process (tuned : monitor.Tuned) (received : Received) :
    (monitor.process now received).1.Tuned := by
  unfold Monitor.process
  split
  · exact tuned
  · split
    · exact tuned
    · exact ⟨tuned.signal, Tracker.expiration_track.trans tuned.regions,
        Tracker.expiration_track.trans tuned.objects⟩

theorem feed (tuned : monitor.Tuned) (bytes : Bytes) : (monitor.feed bytes).1.Tuned :=
  Session.feed_invariant bytes (fun _ => ⟨tuned.signal, tuned.regions, tuned.objects⟩)
    fun later _ _ => tuned_setConfig later _

end Tuned

/-- Regions and beacons are kept as long as before, by the settings and in fact. -/
structure KeepsExpirations (before after : Monitor) : Prop where
  regionSetting : after.config.regionExpirationMs = before.config.regionExpirationMs
  objectSetting : after.config.objectExpirationMs = before.config.objectExpirationMs
  regions : after.regions.expiration = before.regions.expiration
  objects : after.objects.expiration = before.objects.expiration

namespace KeepsExpirations

variable {before after : Monitor}

theorem of_tuned (tuned : before.Tuned) (tuned' : after.Tuned)
    (regionSetting : after.config.regionExpirationMs = before.config.regionExpirationMs)
    (objectSetting : after.config.objectExpirationMs = before.config.objectExpirationMs) :
    before.KeepsExpirations after := by
  refine ⟨regionSetting, objectSetting, ?_, ?_⟩
  · rw [tuned.regions, tuned'.regions, Config.regionExpiration, regionSetting,
      ← Config.regionExpiration]
  · rw [tuned.objects, tuned'.objects, Config.objectExpiration, objectSetting,
      ← Config.objectExpiration]

theorem applyCommand (tuned : before.Tuned) (command : Command) :
    before.KeepsExpirations (before.applyCommand command).1 := by
  refine of_tuned tuned (tuned_setConfig _ _) ?_ ?_ <;>
    cases command <;> rfl

theorem feed (tuned : before.Tuned) (bytes : Bytes) :
    before.KeepsExpirations (before.feed bytes).1 := by
  have settings : (before.feed bytes).1.Tuned ∧ before.KeepsExpirations (before.feed bytes).1 :=
    Session.feed_invariant (motive := fun later => later.Tuned ∧ before.KeepsExpirations later)
      bytes (fun _ => ⟨⟨tuned.signal, tuned.regions, tuned.objects⟩, ⟨rfl, rfl, rfl, rfl⟩⟩) ?_
  · exact settings.2
  rintro later command ⟨tunedLater, kept⟩
  have obeyed : later.KeepsExpirations (later.applyCommand command).1 :=
    applyCommand tunedLater command
  exact ⟨tuned_setConfig _ _, obeyed.regionSetting.trans kept.regionSetting,
    obeyed.objectSetting.trans kept.objectSetting, obeyed.regions.trans kept.regions,
    obeyed.objects.trans kept.objects⟩

end KeepsExpirations

namespace Session

variable {session : Session} {action : Action}

theorem step_tuned (tuned : session.monitor.Tuned) : (session.step action).monitor.Tuned := by
  cases action with
  | process received => exact tuned.process received
  | setConfig config => exact tuned_setConfig _ _
  | command command => exact tuned_setConfig _ _
  | feed bytes => exact tuned.feed bytes
  | purge | report => exact ⟨tuned.signal, tuned.regions, tuned.objects⟩
  | advance duration => exact tuned

theorem run_tuned {actions : List Action} (tuned : session.monitor.Tuned) :
    (session.run actions).monitor.Tuned :=
  run_invariant (motive := fun later => later.monitor.Tuned) (fun _ _ => step_tuned) tuned

/-- After any run every part of the monitor goes by the limit that the settings name. From there,
whatever the host commands or sends, regions and beacons are kept as long as before, and no
advertisement, purge or report changes the settings. -/
theorem limits_eq_settings (time : Nanoseconds) (layouts : List Layout) (regions : List Region)
    (config : Config) (actions : List Action) :
    let monitor := ((start time layouts regions config).run actions).monitor
    (monitor.signal.length = monitor.config.rssiWindow ∧
      monitor.regions.expiration = monitor.config.regionExpiration ∧
      monitor.objects.expiration = monitor.config.objectExpiration) ∧
    (∀ command, monitor.KeepsExpirations (monitor.applyCommand command).1) ∧
    (∀ bytes, monitor.KeepsExpirations (monitor.feed bytes).1) ∧
    (∀ now received, (monitor.process now received).1.config = monitor.config) ∧
    (∀ now, (monitor.purge now).config = monitor.config) ∧
    monitor.report.1.config = monitor.config := by
  intro monitor
  have tuned : monitor.Tuned := run_tuned (tuned_ofLayouts layouts regions config)
  exact ⟨⟨tuned.signal, tuned.regions, tuned.objects⟩, KeepsExpirations.applyCommand tuned,
    KeepsExpirations.feed tuned, fun now received => (process_rest monitor now received).2.1,
    fun _ => rfl, rfl⟩

end Session

end Proximity.Monitor
