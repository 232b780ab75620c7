import BetterCpu.Library.Run
import BetterCpu.Library.Snapshot
import BetterCpu.StartCommand.Restoration

/-!
# Starts, stops and crashes

The daemon over several start commands, on a machine whose cores and devices
stay the same.  A start captures whatever it finds and overwrites the backup
file, so the backup is pristine as long as no start finds the settings of a
crashed daemon.
-/

namespace BetterCpu

structure Lifecycle where
  world : World
  backupFile : Option Text
  daemon : Option PolicyEngine

namespace Lifecycle

/-- A completed start command, which reaches the loop of the engine, a tick, a
completed stop command, and the death of the daemon by `SIGKILL`. -/
inductive Event where
  | start (blocks : BlockLayer)
  | tick (input : TickInput)
  | stop
  | crash

def ofSession (backupFile : Option Text) (s : Session) : Lifecycle :=
  ⟨s.world, backupFile, some s.engine⟩

/-- The body of `run_start_command` up to the first tick. -/
def start (kTune : Kernel) (m : Machine) (blocks : BlockLayer) (s : Lifecycle) : Lifecycle :=
  match s.daemon with
  | some _ => s
  | none =>
      ofSession (some (StateBackup.save (captureCurrentState m s.world.files)))
        (Session.applyInitialState kTune blocks ⟨PolicyEngine.new m.cores, s.world⟩)

def tick (kTune : Kernel) (input : TickInput) (s : Lifecycle) : Lifecycle :=
  match s.daemon with
  | none => s
  | some engine => ofSession s.backupFile (Session.tick kTune input ⟨engine, s.world⟩)

/-- The stop command and what the daemon does on its signal.  The backup file
stays, and an exception of `load` ends the process. -/
def stop (kRestore : Kernel) (s : Lifecycle) : Lifecycle :=
  match s.daemon with
  | none => s
  | some _ =>
      match StateBackup.load s.backupFile with
      | .error _ => ⟨s.world, s.backupFile, none⟩
      | .ok savedState => ⟨restoreBlock kRestore savedState s.world, s.backupFile, none⟩

def crash (s : Lifecycle) : Lifecycle :=
  { s with daemon := none }

def step (kTune kRestore : Kernel) (m : Machine) : Event → Lifecycle → Lifecycle
  | .start blocks => start kTune m blocks
  | .tick input => tick kTune input
  | .stop => stop kRestore
  | .crash => crash

def Pristine (m : Machine) (orig : Sysfs) (s : Lifecycle) : Prop :=
  ∀ a ∈ m.knobs, s.world.files.value a = orig.value a

/-- A start that finds no daemon finds the machine pristine. -/
def Event.StartsPristine (m : Machine) (orig : Sysfs) : Event → Lifecycle → Prop
  | .start _, s => s.daemon = none → s.Pristine m orig
  | _, _ => True

/-! ## The lifecycle is a tuner with a snapshot -/

def knobValues (m : Machine) (files : Sysfs) : {a // a ∈ m.knobs} → Option Reading :=
  fun a ↦ files.value a

theorem knobValues_eq_iff {m : Machine} {files orig : Sysfs} :
    knobValues m files = knobValues m orig ↔ ∀ a ∈ m.knobs, files.value a = orig.value a := by
  simp [knobValues, funext_iff]

theorem captureCurrentState_congr {m : Machine} {files orig : Sysfs}
    (h : knobValues m files = knobValues m orig) :
    captureCurrentState m files = captureCurrentState m orig := by
  rw [knobValues_eq_iff] at h
  have hsnapshot : ∀ cpuId ∈ m.cpuIds,
      Governor.snapshot files cpuId = Governor.snapshot orig cpuId := by
    intro cpuId hcpu
    simp only [Governor.snapshot, CpuFreqState.mk.injEq, true_and]
    exact ⟨Sysfs.currentGovernor_congr (h _ (by simp [Machine.knobs, hcpu])),
      Sysfs.currentMinFreqKhz_congr (h _ (by simp [Machine.knobs, hcpu])),
      Sysfs.currentMaxFreqKhz_congr (h _ (by simp [Machine.knobs, hcpu])),
      Sysfs.currentEpp_congr (h _ (by simp [Machine.knobs, hcpu]))⟩
  have hscheduler : ∀ device ∈ m.devices, IoStorage.currentScheduler files device =
      IoStorage.currentScheduler orig device := fun device hdevice ↦
    Sysfs.currentScheduler_congr (h _ (by simp [Machine.knobs, hdevice]))
  simp only [captureCurrentState, SystemStateBackup.mk.injEq]
  refine ⟨List.map_congr_left hsnapshot, ?_, ?_, ?_, ?_, List.map_congr_left fun d hd ↦ ?_⟩
  · exact Sysfs.readInt_congr 60 (fun _ ↦ rfl) (h _ (by simp [Machine.knobs]))
  · exact Sysfs.readInt_congr 100 (fun _ ↦ rfl) (h _ (by simp [Machine.knobs]))
  · exact Sysfs.readInt_congr 0 (fun _ ↦ rfl) (h _ (by simp [Machine.knobs]))
  · exact Sysfs.readInt_congr 0 (fun _ ↦ rfl) (h _ (by simp [Machine.knobs]))
  · rw [hscheduler d hd]

/-- The tuner that a lifecycle is: its settings are the values of the captured
attributes, its snapshot is what the backup file was saved from. -/
structure Views (m : Machine) (s : Lifecycle)
    (t : Snapshot.Tuner ({a // a ∈ m.knobs} → Option Reading)) : Prop where
  settings : t.settings = knobValues m s.world.files
  running : t.running = s.daemon.isSome
  snapshot : ∀ saved, t.snapshot = some saved → ∃ files, saved = knobValues m files ∧
    s.backupFile = some (StateBackup.save (captureCurrentState m files))

theorem Views.step (kTune kRestore : Kernel) {m : Machine} {s : Lifecycle}
    {t : Snapshot.Tuner ({a // a ∈ m.knobs} → Option Reading)} (h : Views m s t)
    (event : Event) :
    ∃ t', Snapshot.Step t t' ∧ Views m (s.step kTune kRestore m event) t' := by
  obtain ⟨world, backupFile, daemon⟩ := s
  have hrunning := h.running
  cases event with
  | crash => exact ⟨_, .crash t, h.settings, rfl, h.snapshot⟩
  | start blocks =>
      cases daemon with
      | some engine => exact ⟨t, .idle t, h⟩
      | none =>
          refine ⟨_, .start t (knobValues m _) hrunning, rfl, rfl, ?_⟩
          rintro saved ⟨⟩
          exact ⟨world.files, h.settings, rfl⟩
  | tick input =>
      cases daemon with
      | none => exact ⟨t, .idle t, h⟩
      | some engine =>
          exact ⟨_, .tune t (knobValues m _) hrunning, rfl, rfl, h.snapshot⟩
  | stop =>
      cases daemon with
      | none => exact ⟨t, .idle t, h⟩
      | some engine =>
          simp only [Lifecycle.step, stop]
          split
          · exact ⟨_, .stop t _ hrunning, h.settings, rfl, h.snapshot⟩
          · exact ⟨_, .stop t (knobValues m _) hrunning, rfl, rfl, h.snapshot⟩

/-! ## The invariant -/

/-- The lifecycle is a recoverable tuner, no file has come or gone, and no
minimum frequency has changed. -/
structure Inv (m : Machine) (orig : Sysfs) (s : Lifecycle) : Prop where
  recoverable : ∃ t, Views m s t ∧ Snapshot.Recoverable (knobValues m orig) t
  restorable : Restorable orig s.world

variable {kTune kRestore : Kernel} {m : Machine} {orig : Sysfs} {s : Lifecycle}

theorem Inv.load_backupFile (hdecodable : (captureCurrentState m orig).Decodable)
    (h : Inv m orig s) (hneeded : s.daemon.isSome = true ∨ ¬ s.Pristine m orig) :
    StateBackup.load s.backupFile = .ok (some (captureCurrentState m orig)) := by
  obtain ⟨t, hview, hrecoverable⟩ := h.recoverable
  have hsaved : t.snapshot = some (knobValues m orig) := by
    refine hrecoverable (hneeded.imp (fun hrunning ↦ hview.running.trans hrunning) ?_)
    rw [hview.settings]
    exact fun hchanged hsettings ↦ hchanged (knobValues_eq_iff.mp hsettings)
  obtain ⟨files, hfiles, hbackup⟩ := hview.snapshot _ hsaved
  rw [hbackup, captureCurrentState_congr hfiles.symm]
  exact (StateBackup.load_save_eq_iff _ (captureCurrentState_wellFormed m orig)).mpr hdecodable

theorem daemon_step_of_none (event : Event) (hidle : s.daemon = none)
    (hrunning : (s.step kTune kRestore m event).daemon.isSome = true) :
    ∃ blocks, event = .start blocks := by
  cases event with
  | start blocks => exact ⟨blocks, rfl⟩
  | tick input => simp [Lifecycle.step, tick, hidle] at hrunning
  | stop => simp [Lifecycle.step, stop, hidle] at hrunning
  | crash => simp [Lifecycle.step, crash] at hrunning

theorem Inv.step (hdecodable : (captureCurrentState m orig).Decodable) (event : Event)
    (s : Lifecycle) (h : Inv m orig s) (hstart : event.StartsPristine m orig s) :
    Inv m orig (s.step kTune kRestore m event) where
  recoverable := by
    obtain ⟨t, hview, hrecoverable⟩ := h.recoverable
    obtain ⟨t', hstep, hview'⟩ := hview.step kTune kRestore event
    refine ⟨t', hview', hrecoverable.step hstep fun hidle hrunning ↦ ?_⟩
    have hdaemon : s.daemon = none := by simpa [hidle] using hview.running.symm
    obtain ⟨blocks, rfl⟩ := daemon_step_of_none event hdaemon (hview'.running.symm.trans hrunning)
    exact hview.settings.trans (knobValues_eq_iff.mpr (hstart hdaemon))
  restorable := by
    have hs := h.restorable
    cases event with
    | crash => exact hs
    | start blocks =>
        simp only [Lifecycle.step, start]
        split
        · exact hs
        · simp only [ofSession, Action.applyInitialState_eq]
          exact Restorable.runAll (s := ⟨PolicyEngine.new m.cores, s.world⟩) hs _
    | tick input =>
        simp only [Lifecycle.step, tick]
        split
        · exact hs
        · next engine _ =>
            simp only [ofSession, Action.tick_eq]
            exact Restorable.runAll (s := ⟨engine, s.world⟩) hs _
    | stop =>
        simp only [Lifecycle.step, stop]
        split
        · exact hs
        · next engine hdaemon =>
            rw [h.load_backupFile hdecodable (Or.inl (by simp [hdaemon]))]
            simp only [restoreBlock_eq]
            exact hs.writeBack_entries fun entry hentry ↦
              agrees_of_mem_entries (governor_ne_nil_of_decodable hdecodable) hentry

theorem inv_initial (m : Machine) (w : World) (backupFile : Option Text) :
    Inv m w.files ⟨w, backupFile, none⟩ where
  recoverable := by
    refine ⟨⟨knobValues m w.files, none, false⟩, ⟨rfl, rfl, by simp⟩, ?_⟩
    rintro (hrunning | hchanged)
    · cases hrunning
    · exact absurd rfl hchanged
  restorable := restorable_refl w

/-! ## Runs -/

/-- On a machine whose capture is decodable, in every run whose starts find
the machine pristine: whenever some captured attribute has changed, the backup
loads as the pristine capture, and stopping a running daemon brings all of
them back. -/
theorem always_recoverable (kTune kRestore : Kernel) (m : Machine) (w : World)
    (backupFile : Option Text) (events : List Event)
    (hdecodable : (captureCurrentState m w.files).Decodable)
    (hstarts : Run.Guarded (step kTune kRestore m) (Event.StartsPristine m w.files) events
      ⟨w, backupFile, none⟩) :
    Run.Always (step kTune kRestore m) (fun s ↦
      (¬ s.Pristine m w.files → StateBackup.load s.backupFile =
        .ok (some (captureCurrentState m w.files))) ∧
      (m.Capturable w.files →
        (∀ cpuId ∈ m.cpuIds,
          Governor.currentMinFreqKhz w.files cpuId ≤ Governor.currentMaxFreqKhz w.files cpuId) →
        kRestore.Readmits w.files → s.daemon.isSome = true →
          (s.stop kRestore).Pristine m w.files)) events ⟨w, backupFile, none⟩ := by
  have hinv : Run.Always (step kTune kRestore m) (Inv m w.files) events ⟨w, backupFile, none⟩ :=
    Run.always_of_guarded (fun event s hs hstart ↦ hs.step hdecodable event s hstart)
      (inv_initial m w backupFile) hstarts
  refine hinv.imp fun s hs ↦ ⟨fun hchanged ↦ hs.load_backupFile hdecodable (Or.inr hchanged), ?_⟩
  intro hm horder hrestore hrunning a ha
  obtain ⟨engine, hdaemon⟩ := Option.isSome_iff_exists.mp hrunning
  simp only [stop, hdaemon, hs.load_backupFile hdecodable (Or.inl hrunning)]
  exact value_restoreBlock hm horder hrestore hs.restorable ha

theorem always_recoverable_sample :
    Run.Always (step .willing .willing sampleMachine) (fun s ↦
      (¬ s.Pristine sampleMachine Session.sampleFiles → StateBackup.load s.backupFile =
        .ok (some (captureCurrentState sampleMachine Session.sampleFiles))) ∧
      (sampleMachine.Capturable Session.sampleFiles →
        (∀ cpuId ∈ sampleMachine.cpuIds, Governor.currentMinFreqKhz Session.sampleFiles cpuId ≤
          Governor.currentMaxFreqKhz Session.sampleFiles cpuId) →
        Kernel.willing.Readmits Session.sampleFiles → s.daemon.isSome = true →
          (s.stop .willing).Pristine sampleMachine Session.sampleFiles))
      [.start sampleTick.blocks, .tick sampleTick, .stop, .start sampleTick.blocks]
      ⟨⟨Session.sampleFiles, [], []⟩, none, none⟩ := by
  refine always_recoverable .willing .willing sampleMachine ⟨Session.sampleFiles, [], []⟩ none _
    sampleMachine_capturable.decodable ⟨fun _ _ _ ↦ rfl, trivial, trivial, fun _ ↦ ?_, trivial⟩
  unfold Pristine
  decide +kernel

/-- A daemon that is killed while the governor is `schedutil`, and a second
start: the backup now holds `schedutil`. -/
theorem not_recoverable_after_crash :
    ¬ Run.Always (step .willing .willing sampleMachine) (fun s ↦
      ¬ s.Pristine sampleMachine Session.sampleFiles → StateBackup.load s.backupFile =
        .ok (some (captureCurrentState sampleMachine Session.sampleFiles)))
      [.start sampleTick.blocks, .tick sampleTick, .crash, .start sampleTick.blocks]
      ⟨⟨Session.sampleFiles, [], []⟩, none, none⟩ := by
  intro h
  have hload := h.last (by unfold Pristine; decide +kernel)
  revert hload
  decide +kernel

end Lifecycle
end BetterCpu
