import BetterCpu.Sysfs

/-!
# The cpufreq attributes of a core

Reading and writing the governor, the frequency limits and the energy
performance preference of one core, with the snapshot of all four and its
restoration.
-/

namespace BetterCpu

open Text

structure CpuFreqState where
  cpuId : Int32
  governor : Text
  minFreqKhz : UInt64
  maxFreqKhz : UInt64
  eppValue : Option Int32
  deriving DecidableEq

namespace Governor

def currentGovernor (files : Sysfs) (cpuId : Int32) : Text :=
  match files (.scalingGovernor cpuId) with
  | none => []
  | some t => ((IStream.ofText t).word []).1

def currentMaxFreqKhz (files : Sysfs) (cpuId : Int32) : UInt64 :=
  match files (.scalingMaxFreq cpuId) with
  | none => 0
  | some t => ((IStream.ofText t).uint64 0).1

def currentMinFreqKhz (files : Sysfs) (cpuId : Int32) : UInt64 :=
  match files (.scalingMinFreq cpuId) with
  | none => 0
  | some t => ((IStream.ofText t).uint64 0).1

/-- Both exceptions of `stoi` are caught, so a named preference reads as none. -/
def currentEpp (files : Sysfs) (cpuId : Int32) : Option Int32 :=
  match files (.energyPerformancePreference cpuId) with
  | none => none
  | some t => (stoi ((IStream.ofText t).word []).1).toOption

def setGovernor (k : Kernel) (cpuId : Int32) (governor : Text) (w : World) : Bool × World :=
  w.writeValue k (.scalingGovernor cpuId) governor

def setMaxFreqKhz (k : Kernel) (cpuId : Int32) (freqKhz : UInt64) (w : World) : Bool × World :=
  w.writeValue k (.scalingMaxFreq cpuId) (decimal freqKhz.toNat)

def setMinFreqKhz (k : Kernel) (cpuId : Int32) (freqKhz : UInt64) (w : World) : Bool × World :=
  w.writeValue k (.scalingMinFreq cpuId) (decimal freqKhz.toNat)

def setEpp (k : Kernel) (cpuId : Int32) (eppValue : Int32) (w : World) : Bool × World :=
  w.writeValue k (.energyPerformancePreference cpuId) (decimalInt eppValue.toInt)

def snapshot (files : Sysfs) (cpuId : Int32) : CpuFreqState where
  cpuId := cpuId
  governor := currentGovernor files cpuId
  minFreqKhz := currentMinFreqKhz files cpuId
  maxFreqKhz := currentMaxFreqKhz files cpuId
  eppValue := currentEpp files cpuId

/-- Governor, minimum, maximum, preference, in this order; a failure does not
stop the later writes. -/
def restore (k : Kernel) (state : CpuFreqState) (w : World) : Bool × World :=
  let (governorOk, w) := setGovernor k state.cpuId state.governor w
  let (minOk, w) := setMinFreqKhz k state.cpuId state.minFreqKhz w
  let (maxOk, w) := setMaxFreqKhz k state.cpuId state.maxFreqKhz w
  match state.eppValue with
  | none => (governorOk && minOk && maxOk, w)
  | some epp =>
      let (eppOk, w) := setEpp k state.cpuId epp w
      (governorOk && minOk && maxOk && eppOk, w)

theorem spaceless_currentGovernor (files : Sysfs) (cpuId : Int32) :
    Spaceless (currentGovernor files cpuId) := by
  unfold currentGovernor
  split
  · simp
  · exact IStream.spaceless_word _ (by simp)

end Governor
end BetterCpu
