import BetterCpu.PolicyEngine
import BetterCpu.StateBackup

/-!
# The start command

What `run_start_command` captures before the tuning and what it restores once
the engine has stopped.
-/

namespace BetterCpu

open Text

/-- The cores and the block devices of the machine.  A directory entry is a
word, and the two counts are values of `size_t`. -/
structure Machine where
  cores : List CpuCoreInfo
  sysBlock : List Text
  isWord_of_mem_sysBlock : ∀ name ∈ sysBlock, IsWord name
  length_cores : cores.length < 2 ^ 64
  length_sysBlock : sysBlock.length < 2 ^ 64

namespace Machine

def cpuIds (m : Machine) : List Int32 :=
  onlineIds m.cores

def devices (m : Machine) : List Text :=
  IoStorage.listBlockDevices m.sysBlock

theorem length_cpuIds (m : Machine) : m.cpuIds.length < 2 ^ 64 := by
  have hle : m.cpuIds.length ≤ m.cores.length := by
    simpa [cpuIds, onlineIds] using List.length_filter_le CpuCoreInfo.isOnline m.cores
  exact hle.trans_lt m.length_cores

theorem length_devices (m : Machine) : m.devices.length < 2 ^ 64 :=
  (List.length_filter_le _ _).trans_lt m.length_sysBlock

theorem isWord_of_mem_devices (m : Machine) {device : Text} (h : device ∈ m.devices) :
    IsWord device :=
  m.isWord_of_mem_sysBlock device (List.mem_of_mem_filter h)

def knobs (m : Machine) : List Attr :=
  m.cpuIds.flatMap (fun cpuId ↦ [.scalingGovernor cpuId, .scalingMinFreq cpuId,
      .scalingMaxFreq cpuId, .energyPerformancePreference cpuId]) ++
    (.swappiness :: .vfsCachePressure :: .dirtyRatio :: .dirtyBackgroundRatio ::
      m.devices.map .queueScheduler)

end Machine

/-! ## Capturing -/

def captureCurrentState (m : Machine) (files : Sysfs) : SystemStateBackup where
  cpuFreqStates := m.cpuIds.map (Governor.snapshot files)
  swappiness := MemGuard.readSwappiness files
  vfsCachePressure := MemGuard.readVfsCachePressure files
  dirtyRatio := IoStorage.readDirtyRatio files
  dirtyBackgroundRatio := IoStorage.readDirtyBackgroundRatio files
  ioSchedulers := m.devices.map fun deviceName ↦
    (deviceName, IoStorage.currentScheduler files deviceName)

/-! ## Restoring -/

/-- The block of `run_start_command` behind `restore_backup.load()`. -/
def restoreBlock (k : Kernel) : Option SystemStateBackup → World → World
  | none, w => w
  | some savedState, w =>
      let w := savedState.cpuFreqStates.foldl (fun w state ↦ (Governor.restore k state w).2) w
      let (_, w) := MemGuard.setSwappiness k savedState.swappiness w
      let (_, w) := MemGuard.setVfsCachePressure k savedState.vfsCachePressure w
      let (_, w) := IoStorage.setDirtyRatio k savedState.dirtyRatio w
      let (_, w) := IoStorage.setDirtyBackgroundRatio k savedState.dirtyBackgroundRatio w
      savedState.ioSchedulers.foldl (fun w entry ↦
        (IoStorage.setScheduler k entry.1 entry.2 w).2) w

/-- The start command from the capture to the end of the process, with one
entry of `inputs` for each tick before the stop.  The kernel answers by
`kTune` while the engine runs and by `kRestore` afterwards. -/
def startCommand (kTune kRestore : Kernel) (m : Machine) (blocks : BlockLayer)
    (inputs : List TickInput) (w : World) : Except StdException World := do
  let backupFile := StateBackup.save (captureCurrentState m w.files)
  let s := Session.run kTune blocks inputs ⟨PolicyEngine.new m.cores, w⟩
  let savedState ← StateBackup.load (some backupFile)
  return restoreBlock kRestore savedState s.world

/-! ## The restore block as a list of writes -/

def CpuFreqState.entries (state : CpuFreqState) : List (Attr × Text) :=
  (.scalingGovernor state.cpuId, state.governor) ::
    (.scalingMinFreq state.cpuId, decimal state.minFreqKhz.toNat) ::
      (.scalingMaxFreq state.cpuId, decimal state.maxFreqKhz.toNat) ::
        (state.eppValue.toList.map fun epp ↦
          (.energyPerformancePreference state.cpuId, decimalInt epp.toInt))

def SystemStateBackup.entries (state : SystemStateBackup) : List (Attr × Text) :=
  state.cpuFreqStates.flatMap CpuFreqState.entries ++
    ((.swappiness, decimalInt state.swappiness.toInt) ::
      (.vfsCachePressure, decimalInt state.vfsCachePressure.toInt) ::
        (.dirtyRatio, decimalInt state.dirtyRatio.toInt) ::
          (.dirtyBackgroundRatio, decimalInt state.dirtyBackgroundRatio.toInt) ::
            state.ioSchedulers.map fun entry ↦ (.queueScheduler entry.1, entry.2))

def writeBack (k : Kernel) (entries : List (Attr × Text)) (w : World) : World :=
  entries.foldl (fun w entry ↦ (w.writeValue k entry.1 entry.2).2) w

@[simp] theorem writeBack_nil (k : Kernel) (w : World) : writeBack k [] w = w := rfl

@[simp] theorem writeBack_cons (k : Kernel) (entry : Attr × Text) (entries : List (Attr × Text))
    (w : World) : writeBack k (entry :: entries) w =
      writeBack k entries (w.writeValue k entry.1 entry.2).2 := rfl

theorem writeBack_append (k : Kernel) (xs ys : List (Attr × Text)) (w : World) :
    writeBack k (xs ++ ys) w = writeBack k ys (writeBack k xs w) := by
  simp [writeBack]

theorem Governor.restore_eq (k : Kernel) (state : CpuFreqState) (w : World) :
    (Governor.restore k state w).2 = writeBack k state.entries w := by
  unfold Governor.restore CpuFreqState.entries
  cases state.eppValue <;> rfl

theorem restoreBlock_eq (k : Kernel) (state : SystemStateBackup) (w : World) :
    restoreBlock k (some state) w = writeBack k state.entries w := by
  have hcpus (states : List CpuFreqState) (w : World) :
      states.foldl (fun w state ↦ (Governor.restore k state w).2) w =
        writeBack k (states.flatMap CpuFreqState.entries) w := by
    simp only [Governor.restore_eq, writeBack, List.foldl_flatMap]
  rw [SystemStateBackup.entries, writeBack_append, ← hcpus]
  simp only [restoreBlock, writeBack, List.foldl_cons, List.foldl_map]
  rfl

end BetterCpu
