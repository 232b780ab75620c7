import BetterCpu.Library.WriteCache
import BetterCpu.Governor
import BetterCpu.Sensors
import Mathlib.Algebra.Order.Field.Rat

/-!
# The policy engine

The engine of the daemon with its caches, the initial tuning, the four
policies and the tick that runs them.  The engine and the machine it acts on
are one state, and every policy is a function on it.
-/

namespace BetterCpu

open Text

inductive SystemActivityLevel where
  | idle
  | light
  | moderate
  | heavy
  deriving DecidableEq, Repr

def kThermalPassiveDefaultMillidegrees : Int64 := 85000
def kThermalRecoveryMillidegrees : Int64 := 78000
def kNvmeDefaultReadLatencyNs : UInt64 := 2000000
def kNvmeDefaultWriteLatencyNs : UInt64 := 10000000
def kIdleLoadThreshold : ℚ := 1 / 20
def kLightLoadThreshold : ℚ := 1 / 5
def kHeavyLoadThreshold : ℚ := 4 / 5
def kEppPerformance : Int32 := 0
def kEppBalanced : Int32 := 128
def kEppPowerSave : Int32 := 200

def schedutil : Text := ['s', 'c', 'h', 'e', 'd', 'u', 't', 'i', 'l']
def noneScheduler : Text := ['n', 'o', 'n', 'e']
def mqDeadline : Text := ['m', 'q', '-', 'd', 'e', 'a', 'd', 'l', 'i', 'n', 'e']

structure PolicyEngine where
  cores : List CpuCoreInfo
  originalMaxFreqKhz : Int32 → Option UInt64
  currentMaxFreqKhz : Int32 → Option UInt64
  appliedGovernors : Int32 → Option Text
  appliedEpp : Int32 → Option Int32
  appliedSchedulers : Text → Option Text

def PolicyEngine.new (cores : List CpuCoreInfo) : PolicyEngine where
  cores := cores
  originalMaxFreqKhz := fun _ ↦ none
  currentMaxFreqKhz := fun _ ↦ none
  appliedGovernors := fun _ ↦ none
  appliedEpp := fun _ ↦ none
  appliedSchedulers := fun _ ↦ none

structure Session where
  engine : PolicyEngine
  world : World

namespace Session

variable (k : Kernel)

/-! ## The setters with a cache -/

def setGovernorIfChanged (cpuId : Int32) (governorName : Text) (s : Session) : Session :=
  let (applied, w) := setIfChanged (Governor.setGovernor k) s.engine.appliedGovernors
    cpuId governorName s.world
  ⟨{ s.engine with appliedGovernors := applied }, w⟩

def setEppIfChanged (cpuId eppValue : Int32) (s : Session) : Session :=
  let (applied, w) := setIfChanged (Governor.setEpp k) s.engine.appliedEpp
    cpuId eppValue s.world
  ⟨{ s.engine with appliedEpp := applied }, w⟩

def setSchedulerIfChanged (deviceName schedulerName : Text) (s : Session) : Session :=
  let (applied, w) := setIfChanged (IoStorage.setScheduler k) s.engine.appliedSchedulers
    deviceName schedulerName s.world
  ⟨{ s.engine with appliedSchedulers := applied }, w⟩

/-! ## The initial state -/

/-- One core of the first loop of `apply_initial_state`. -/
def initializeCore (cpuId : Int32) (s : Session) : Session :=
  let s := s.setGovernorIfChanged k cpuId schedutil
  let maxFreq := Governor.currentMaxFreqKhz s.world.files cpuId
  { s with engine := { s.engine with
      originalMaxFreqKhz := Function.update s.engine.originalMaxFreqKhz cpuId (some maxFreq)
      currentMaxFreqKhz := Function.update s.engine.currentMaxFreqKhz cpuId (some maxFreq) } }

def initializeDevice (deviceName : Text) (kind : DiskKind) (s : Session) : Session :=
  match kind with
  | .nvme => s.setSchedulerIfChanged k deviceName noneScheduler
  | .hdd => s.setSchedulerIfChanged k deviceName mqDeadline
  | _ => s

def applyInitialState (blocks : BlockLayer) (s : Session) : Session :=
  let s := s.engine.cores.foldl (fun s core ↦
    if core.isOnline then s.initializeCore k core.cpuId else s) s
  (IoStorage.listBlockDevices blocks.sysBlock).foldl (fun s deviceName ↦
    s.initializeDevice k deviceName
      (IoStorage.detectKind deviceName (blocks.rotational deviceName))) s

/-! ## The thermal policy -/

/-- Whether some reading exceeds a threshold; the loops stop at the first. -/
def anyAbove (threshold : Int64) (readings : List ThermalZoneReading) : Bool :=
  readings.any fun reading ↦ threshold < reading.tempMillidegrees

def thermalTarget (readings : List ThermalZoneReading) (originalMax appliedMax : UInt64) :
    UInt64 :=
  if anyAbove kThermalPassiveDefaultMillidegrees readings then
    let reducedMax := appliedMax - appliedMax / 20
    let floorMax := originalMax / 2
    if reducedMax < floorMax then floorMax else reducedMax
  else if !anyAbove kThermalRecoveryMillidegrees readings && decide (appliedMax < originalMax) then
    originalMax
  else appliedMax

/-- One core of `evaluate_thermal_policy`. -/
def capCore (readings : List ThermalZoneReading) (cpuId : Int32) (s : Session) : Session :=
  match s.engine.originalMaxFreqKhz cpuId with
  | none => s
  | some originalMax =>
      let appliedMax := (s.engine.currentMaxFreqKhz cpuId).getD 0
      let targetMax := thermalTarget readings originalMax appliedMax
      if targetMax ≠ appliedMax then
        let (current, w) := setAndRecord (Governor.setMaxFreqKhz k)
          s.engine.currentMaxFreqKhz cpuId targetMax s.world
        ⟨{ s.engine with currentMaxFreqKhz := current }, w⟩
      else s

def evaluateThermalPolicy (readings : List ThermalZoneReading) (s : Session) : Session :=
  s.engine.cores.foldl (fun s core ↦
    if core.isOnline then s.capCore k readings core.cpuId else s) s

/-! ## The load policy -/

def normalizedLoad (load : LoadAverage) (onlineCores : ℕ) : ℚ :=
  load.avg1 / onlineCores

def targetEpp (activityLevel : SystemActivityLevel) (normalizedLoad : ℚ) : Int32 :=
  if activityLevel = .idle then kEppPowerSave
  else if kHeavyLoadThreshold < normalizedLoad then kEppPerformance
  else if normalizedLoad < kLightLoadThreshold then kEppPowerSave
  else kEppBalanced

def evaluateLoadPolicy (activityLevel : SystemActivityLevel) (load : LoadAverage)
    (onlineCores : ℕ) (s : Session) : Session :=
  if onlineCores = 0 then s
  else
    let epp := targetEpp activityLevel (normalizedLoad load onlineCores)
    s.engine.cores.foldl (fun s core ↦
      if core.isOnline then s.setEppIfChanged k core.cpuId epp else s) s

/-! ## The memory policy -/

/-- The ratio that is set under rising pressure; `read_dirty_ratio` is called
once more when it is above five. -/
def relievedDirtyRatio (files : Sysfs) : Int32 :=
  if 5 < IoStorage.readDirtyRatio files then IoStorage.readDirtyRatio files - 5 else 5

/-- The branch of `MemoryPressureLevel::Rising`.  The addition is that of a
32 bit `int`. -/
def relieveRisingPressure (s : Session) : Session :=
  let currentPressure := MemGuard.readVfsCachePressure s.world.files
  let (_, w) := MemGuard.setVfsCachePressure k (currentPressure + 20) s.world
  let (_, w) := IoStorage.setDirtyRatio k (relievedDirtyRatio w.files) w
  { s with world := w }

def evaluateMemoryPolicy (pressure : MemoryPressure) (topConsumers : List ProcessMemoryUsage)
    (s : Session) : Session :=
  match MemGuard.classify pressure with
  | .healthy => s
  | .rising => s.relieveRisingPressure k
  | .critical =>
      match topConsumers with
      | [] => s
      | front :: _ => { s with world := MemGuard.requestGracefulTermination front.pid s.world }

/-! ## The I/O policy -/

def scheduleNvme (deviceName : Text) (sample : DiskStatsSample) (s : Session) : Session :=
  if 4 < sample.ioInProgress then s.setSchedulerIfChanged k deviceName mqDeadline
  else
    let s := s.setSchedulerIfChanged k deviceName noneScheduler
    let (_, w) := IoStorage.setNvmeLatencyTarget k deviceName kNvmeDefaultReadLatencyNs
      kNvmeDefaultWriteLatencyNs s.world
    { s with world := w }

def evaluateIoPolicy (activityLevel : SystemActivityLevel) (blocks : BlockLayer)
    (s : Session) : Session :=
  if activityLevel = .idle then s
  else
    (IoStorage.listBlockDevices blocks.sysBlock).foldl (fun s deviceName ↦
      if IoStorage.detectKind deviceName (blocks.rotational deviceName) ≠ .nvme then s
      else s.scheduleNvme k deviceName (blocks.diskStats deviceName)) s

end Session

/-! ## The tick -/

def classifyActivity (normalizedLoad : ℚ) (memLevel : MemoryPressureLevel)
    (thermalEvent : Bool) : SystemActivityLevel :=
  if thermalEvent || memLevel = .critical then .heavy
  else if memLevel = .rising || kHeavyLoadThreshold < normalizedLoad then .moderate
  else if kIdleLoadThreshold < normalizedLoad then .light
  else .idle

def computeSleepIntervalMs : SystemActivityLevel → ℕ
  | .heavy => 200
  | .moderate => 1000
  | .light => 3000
  | .idle => 8000

def TickInput.activityLevel (input : TickInput) : SystemActivityLevel :=
  let thermalEvent := Session.anyAbove kThermalPassiveDefaultMillidegrees input.zones
  let load := if 0 < input.onlineCores then
    Session.normalizedLoad input.load input.onlineCores else 0
  classifyActivity load (MemGuard.classify input.pressure) thermalEvent

def TickInput.sleepMs (input : TickInput) : ℕ :=
  computeSleepIntervalMs input.activityLevel

def Session.tick (k : Kernel) (input : TickInput) (s : Session) : Session :=
  let s := s.evaluateThermalPolicy k input.thermalZones
  let s := s.evaluateLoadPolicy k input.activityLevel input.policyLoad input.policyOnlineCores
  let s := s.evaluateMemoryPolicy k input.policyPressure input.topConsumers
  s.evaluateIoPolicy k input.activityLevel input.blocks

/-- `PolicyEngine::run` until stop is requested: the inputs are those of the
ticks that begin before the loop condition sees the flag. -/
def Session.run (k : Kernel) (blocks : BlockLayer) (inputs : List TickInput)
    (s : Session) : Session :=
  inputs.foldl (fun s input ↦ s.tick k input) (s.applyInitialState k blocks)

end BetterCpu
