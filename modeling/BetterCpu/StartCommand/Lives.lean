import BetterCpu.Lifecycle

/-!
# One start after the other

The settings do not drift: a daemon that is started, tunes and is stopped leaves
the machine to the next one as it found it, so that every one of them captures
the same state.
-/

namespace BetterCpu

/-- A life of the daemon from the start command to the end of its process. -/
structure DaemonLife where
  kTune : Kernel
  kRestore : Kernel
  blocks : BlockLayer
  inputs : List TickInput

def DaemonLife.run (m : Machine) (w : World) (life : DaemonLife) : Except StdException World :=
  startCommand life.kTune life.kRestore m life.blocks life.inputs w

/-- The machine between two daemons: the captured attributes have the values of
`orig`, and what the restore block relies on holds. -/
structure AtRest (m : Machine) (orig : Sysfs) (w : World) : Prop where
  restorable : Restorable orig w
  knobs : ∀ a ∈ m.knobs, w.files.value a = orig.value a

theorem AtRest.captureCurrentState_eq {m : Machine} {orig : Sysfs} {w : World}
    (h : AtRest m orig w) : captureCurrentState m w.files = captureCurrentState m orig :=
  Lifecycle.captureCurrentState_congr (Lifecycle.knobValues_eq_iff.mpr h.knobs)

/-- A daemon leaves the machine at rest, whatever it has tuned. -/
theorem AtRest.run {m : Machine} {orig : Sysfs} (hm : m.Capturable orig)
    (horder : ∀ cpuId ∈ m.cpuIds,
      Governor.currentMinFreqKhz orig cpuId ≤ Governor.currentMaxFreqKhz orig cpuId)
    {w : World} (h : AtRest m orig w) {life : DaemonLife} (hrestore : life.kRestore.Readmits orig) :
    ∃ w', life.run m w = .ok w' ∧ AtRest m orig w' := by
  let s := Session.run life.kTune life.blocks life.inputs ⟨PolicyEngine.new m.cores, w⟩
  have htuned : Restorable orig s.world := by
    rw [show s = _ from Action.run_eq _ _ _ _]
    exact Restorable.runAll (s := ⟨PolicyEngine.new m.cores, w⟩) h.restorable _
  refine ⟨restoreBlock life.kRestore (some (captureCurrentState m orig)) s.world, ?_, ?_, ?_⟩
  · rw [DaemonLife.run, startCommand, h.captureCurrentState_eq, hm.load_save]
    rfl
  · rw [restoreBlock_eq]
    exact htuned.writeBack_entries fun entry hentry ↦ agrees_of_mem_entries hm.governor hentry
  · exact fun a ha ↦ value_restoreBlock hm horder hrestore htuned ha

/-- However many daemons have been started and stopped one after the other on a
machine whose capture can hold all its values, and whatever each of them tuned: if
the kernel takes back what was there, the captured attributes have the values that
they had before the first one, and the next capture is the first capture. -/
theorem lives_restore (m : Machine) (lives : List DaemonLife) (w : World)
    (hm : m.Capturable w.files)
    (horder : ∀ cpuId ∈ m.cpuIds,
      Governor.currentMinFreqKhz w.files cpuId ≤ Governor.currentMaxFreqKhz w.files cpuId)
    (hrestore : ∀ life ∈ lives, life.kRestore.Readmits w.files) :
    ∃ w', lives.foldlM (DaemonLife.run m) w = .ok w' ∧
      (∀ a ∈ m.knobs, w'.files.value a = w.files.value a) ∧
        captureCurrentState m w'.files = captureCurrentState m w.files := by
  have hlives (lives : List DaemonLife) (hlives : ∀ life ∈ lives, life.kRestore.Readmits w.files)
      (v : World) (hv : AtRest m w.files v) :
      ∃ w', lives.foldlM (DaemonLife.run m) v = .ok w' ∧ AtRest m w.files w' := by
    induction lives generalizing v with
    | nil => exact ⟨v, rfl, hv⟩
    | cons life lives ih =>
        obtain ⟨v', hrun, hv'⟩ := hv.run hm horder (hlives life List.mem_cons_self)
        obtain ⟨w', hrest, hw'⟩ := ih (fun l hl ↦ hlives l (List.mem_cons_of_mem _ hl)) v' hv'
        refine ⟨w', ?_, hw'⟩
        rw [List.foldlM_cons, hrun]
        exact hrest
  obtain ⟨w', hrun, hw'⟩ := hlives lives hrestore w ⟨restorable_refl w, fun _ _ ↦ rfl⟩
  exact ⟨w', hrun, hw'.knobs, hw'.captureCurrentState_eq⟩

theorem lives_restore_sample :
    let life : DaemonLife := ⟨Session.withoutSchedutil, .willing, sampleTick.blocks, [sampleTick]⟩
    ∃ w', [life, life].foldlM (DaemonLife.run sampleMachine) ⟨Session.sampleFiles, [], []⟩ =
        .ok w' ∧
      ∀ a ∈ sampleMachine.knobs, w'.files.value a = Session.sampleFiles.value a := by
  intro life
  obtain ⟨w', hrun, hknobs, -⟩ := lives_restore sampleMachine [life, life]
    ⟨Session.sampleFiles, [], []⟩ sampleMachine_capturable
    (List.forall_mem_singleton.mpr (by decide)) fun l hl ↦ by
      obtain rfl : l = life := by simpa using hl
      exact Kernel.willing_readmits _
  exact ⟨w', hrun, hknobs⟩

end BetterCpu
