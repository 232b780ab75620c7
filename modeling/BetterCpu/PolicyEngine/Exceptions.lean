import BetterCpu.MemGuard.Consumers
import BetterCpu.MemGuard.Pressure
import BetterCpu.Topology

/-!
# Exceptions of a tick

The conversions of a tick are spread over the pressure, the processors and the
processes, and nothing above them catches an exception.  A tick returns exactly
if the texts that it converts start with numbers, and one that does not return
takes the daemon past the restore block.
-/

namespace BetterCpu

open MemGuard BetterCpu.Topology

/-- What one tick reads, with the contents of the files whose readers may throw.
`pressure` and `cpus` are those of `PolicyEngine::tick`, the other two those of
the policies; the processes are read under critical pressure only. -/
structure TickFiles where
  pressure : Option Text
  zones : List ThermalZoneReading
  load : LoadAverage
  cpus : CpuTree
  thermalZones : List ThermalZoneReading
  policyLoad : LoadAverage
  policyCpus : CpuTree
  policyPressure : Option Text
  proc : Option (List ProcEntry)
  blocks : BlockLayer

namespace TickFiles

/-- The values that the readers return.  A reader that throws returns none, so
that nothing is read if one of them does. -/
structure Reads (round : Rounding) (files : TickFiles) (input : TickInput) : Prop where
  pressure : ∃ sample, readMemoryPressure round files.pressure = .ok sample ∧
    input.pressure = sample.toMemoryPressure
  zones : input.zones = files.zones
  load : input.load = files.load
  onlineCores : onlineCpuCount files.cpus = .ok input.onlineCores
  thermalZones : input.thermalZones = files.thermalZones
  policyLoad : input.policyLoad = files.policyLoad
  policyOnlineCores : onlineCpuCount files.policyCpus = .ok input.policyOnlineCores
  policyPressure : ∃ sample, readMemoryPressure round files.policyPressure = .ok sample ∧
    input.policyPressure = sample.toMemoryPressure
  topConsumers : classify input.policyPressure = .critical →
    TopMemoryConsumers files.proc 1 input.topConsumers
  blocks : input.blocks = files.blocks

/-- The texts that are converted start with numbers that fit. -/
structure Harmless (round : Rounding) (files : TickFiles) : Prop where
  pressure : HarmlessPressure round files.pressure
  cpus : HarmlessTree files.cpus
  policyCpus : HarmlessTree files.policyCpus
  policyPressure : HarmlessPressure round files.policyPressure
  proc : ∀ sample, readMemoryPressure round files.policyPressure = .ok sample →
    classifySample sample = .critical → HarmlessProc files.proc

theorem exists_reads_iff {round : Rounding} {files : TickFiles} :
    (∃ input, files.Reads round input) ↔ files.Harmless round := by
  constructor
  · rintro ⟨input, h⟩
    obtain ⟨sample, hsample, -⟩ := h.pressure
    obtain ⟨policySample, hpolicySample, hpolicy⟩ := h.policyPressure
    refine ⟨readMemoryPressure_returns_iff.mp ⟨sample, hsample⟩,
      onlineCpuCount_returns_iff.mp ⟨_, h.onlineCores⟩,
      onlineCpuCount_returns_iff.mp ⟨_, h.policyOnlineCores⟩,
      readMemoryPressure_returns_iff.mp ⟨policySample, hpolicySample⟩,
      fun sample' hsample' hcritical ↦ ?_⟩
    rw [hpolicySample] at hsample'
    cases hsample'
    rw [← classify_toMemoryPressure, ← hpolicy] at hcritical
    exact topMemoryConsumers_one_returns_iff.mp ⟨_, h.topConsumers hcritical⟩
  · rintro ⟨hpressure, hcpus, hpolicyCpus, hpolicyPressure, hproc⟩
    obtain ⟨sample, hsample⟩ := readMemoryPressure_returns_iff.mpr hpressure
    obtain ⟨onlineCores, honlineCores⟩ := onlineCpuCount_returns_iff.mpr hcpus
    obtain ⟨policyOnlineCores, hpolicyOnlineCores⟩ := onlineCpuCount_returns_iff.mpr hpolicyCpus
    obtain ⟨policySample, hpolicySample⟩ := readMemoryPressure_returns_iff.mpr hpolicyPressure
    have hconsumers : ∃ topConsumers, classify policySample.toMemoryPressure = .critical →
        TopMemoryConsumers files.proc 1 topConsumers := by
      rw [classify_toMemoryPressure]
      by_cases hcritical : classifySample policySample = .critical
      · obtain ⟨topConsumers, htop⟩ :=
          topMemoryConsumers_one_returns_iff.mpr (hproc policySample hpolicySample hcritical)
        exact ⟨topConsumers, fun _ ↦ htop⟩
      · exact ⟨[], fun h ↦ absurd h hcritical⟩
    obtain ⟨topConsumers, htop⟩ := hconsumers
    exact ⟨⟨sample.toMemoryPressure, files.zones, files.load, onlineCores, files.thermalZones,
      files.policyLoad, policyOnlineCores, policySample.toMemoryPressure, topConsumers,
      files.blocks⟩, ⟨sample, hsample, rfl⟩, rfl, rfl, honlineCores, rfl, rfl, hpolicyOnlineCores,
      ⟨policySample, hpolicySample, rfl⟩, htop, rfl⟩

theorem exists_all_reads_iff {round : Rounding} {ticks : List TickFiles} :
    (∃ inputs, List.Forall₂ (Reads round) ticks inputs) ↔
      ∀ files ∈ ticks, files.Harmless round := by
  induction ticks with
  | nil => exact iff_of_true ⟨[], .nil⟩ (by simp)
  | cons files ticks ih =>
      rw [List.forall_mem_cons, ← ih, ← exists_reads_iff]
      constructor
      · rintro ⟨_, hinput | ⟨hinput, hinputs⟩⟩
        exact ⟨⟨_, hinput⟩, _, hinputs⟩
      · rintro ⟨⟨input, hinput⟩, inputs, hinputs⟩
        exact ⟨input :: inputs, .cons hinput hinputs⟩

end TickFiles

namespace Session

/-- `tick` may return in the state `s'`; without any an exception escapes. -/
def Ticks (k : Kernel) (round : Rounding) (files : TickFiles) (s s' : Session) : Prop :=
  ∃ input, files.Reads round input ∧ s' = s.tick k input

/-- `run` comes to the stop flag behind these ticks, in the state `s'`. -/
def RunsThrough (k : Kernel) (round : Rounding) (blocks : BlockLayer) (ticks : List TickFiles)
    (s s' : Session) : Prop :=
  ∃ inputs, List.Forall₂ (TickFiles.Reads round) ticks inputs ∧ s' = s.run k blocks inputs

/-- A tick returns if and only if every text that it converts starts with a
number that fits, and no line of a `status` that it reads is only the key of the
name; the engine comes to its stop flag, and the start command to its restore
block, if and only if this holds of every tick of the run. -/
theorem tick_returns_iff (k : Kernel) (round : Rounding) :
    (∀ files s, (∃ s', Ticks k round files s s') ↔ files.Harmless round) ∧
      ∀ blocks ticks s, (∃ s', RunsThrough k round blocks ticks s s') ↔
        ∀ files ∈ ticks, files.Harmless round := by
  constructor
  · intro files s
    rw [← TickFiles.exists_reads_iff]
    constructor
    · rintro ⟨_, input, hinput, -⟩
      exact ⟨input, hinput⟩
    · rintro ⟨input, hinput⟩
      exact ⟨_, input, hinput, rfl⟩
  · intro blocks ticks s
    rw [← TickFiles.exists_all_reads_iff]
    constructor
    · rintro ⟨_, inputs, hinputs, -⟩
      exact ⟨inputs, hinputs⟩
    · rintro ⟨inputs, hinputs⟩
      exact ⟨_, inputs, hinputs, rfl⟩

/-- A machine that shows nothing but a pressure without its first number. -/
def numberlessTick : TickFiles where
  pressure := some "some avg10=\n".toList
  zones := []
  load := ⟨0, 0, 0⟩
  cpus := ⟨none, fun _ ↦ ⟨none, none, none, none, none⟩⟩
  thermalZones := []
  policyLoad := ⟨0, 0, 0⟩
  policyCpus := ⟨none, fun _ ↦ ⟨none, none, none, none, none⟩⟩
  policyPressure := none
  proc := none
  blocks := ⟨[], fun _ ↦ none, fun d ↦ ⟨d, 0, 0, 0, 0, 0, 0⟩⟩

theorem not_tick_returns_numberlessTick :
    readMemoryPressure .exact numberlessTick.pressure = .error .invalidArgument ∧
      ∀ k s, ¬ ∃ s', Ticks k .exact numberlessTick s s' := by
  have hthrows : readMemoryPressure .exact numberlessTick.pressure = .error .invalidArgument := by
    decide +kernel
  refine ⟨hthrows, fun k s ↦ ?_⟩
  rintro ⟨_, input, hinput, -⟩
  obtain ⟨sample, hsample, -⟩ := hinput.pressure
  rw [hthrows] at hsample
  cases hsample

end Session
end BetterCpu
