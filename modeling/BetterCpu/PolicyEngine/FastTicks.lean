import BetterCpu.PolicyEngine.Hotter
import BetterCpu.PolicyEngine.UnreadableZones

/-!
# Throttling ticks

A tick reads the thermal zones once to classify the activity and once more in
the thermal policy.  It is the second read that lowers a cap, and the first one
that makes the tick a fast one, so the two go together as long as the reads
agree about the passive threshold.
-/

namespace BetterCpu

namespace Session

/-- The tick lowers the recorded cap of some core. -/
def LowersCap (k : Kernel) (input : TickInput) (s : Session) : Prop :=
  ∃ cpu cap cap', s.engine.currentMaxFreqKhz cpu = some cap ∧
    (s.tick k input).engine.currentMaxFreqKhz cpu = some cap' ∧ cap' < cap

/-- No cap that is recorded in the first state is lower in the second one. -/
def CapsKept (s t : Session) : Prop :=
  ∀ cpu cap, s.engine.currentMaxFreqKhz cpu = some cap →
    ∃ cap', t.engine.currentMaxFreqKhz cpu = some cap' ∧ cap ≤ cap'

theorem CapsKept.refl (s : Session) : CapsKept s s :=
  fun _ cap hcap ↦ ⟨cap, hcap, le_rfl⟩

theorem CapsKept.trans {s t u : Session} (hst : CapsKept s t) (htu : CapsKept t u) :
    CapsKept s u := by
  intro cpu cap hcap
  obtain ⟨mid, hmid, hle⟩ := hst cpu cap hcap
  obtain ⟨cap', hcap', hle'⟩ := htu cpu mid hmid
  exact ⟨cap', hcap', hle.trans hle'⟩

variable {k : Kernel} {s : Session} {readings : List ThermalZoneReading}

theorem le_thermalTarget (h : anyAbove kThermalPassiveDefaultMillidegrees readings = false)
    (originalMax appliedMax : UInt64) :
    appliedMax ≤ thermalTarget readings originalMax appliedMax := by
  unfold thermalTarget
  rw [h, if_neg Bool.false_ne_true]
  split
  · next hrecovered =>
      simp only [Bool.and_eq_true, decide_eq_true_eq] at hrecovered
      exact hrecovered.2.le
  · exact le_rfl

theorem capsKept_capCore (h : anyAbove kThermalPassiveDefaultMillidegrees readings = false)
    (cpuId : Int32) (s : Session) : CapsKept s (s.capCore k readings cpuId) := by
  intro cpu cap hcap
  by_cases hcpu : cpu = cpuId
  · subst hcpu
    have hle := le_thermalTarget h
    unfold capCore
    split
    · exact ⟨cap, hcap, le_rfl⟩
    · next originalMax _ =>
        simp only [hcap, Option.getD_some]
        split
        · dsimp only [setAndRecord]
          split
          · exact ⟨_, Function.update_self _ _ _, hle originalMax cap⟩
          · exact ⟨cap, hcap, le_rfl⟩
        · exact ⟨cap, hcap, le_rfl⟩
  · obtain ⟨-, hcurrent⟩ := capCore_of_ne k readings s hcpu
    exact ⟨cap, hcurrent.trans hcap, le_rfl⟩

/-- Behind the thermal policy, a tick leaves the recorded caps alone. -/
theorem currentMaxFreqKhz_tick (k : Kernel) (input : TickInput) (s : Session) :
    (s.tick k input).engine.currentMaxFreqKhz =
      (s.evaluateThermalPolicy k input.thermalZones).engine.currentMaxFreqKhz := by
  have htick : s.tick k input = Action.runAll k (laterActions s.engine.cores input)
      (s.evaluateThermalPolicy k input.thermalZones) := by
    rw [Action.tick_eq, Action.evaluateThermalPolicy_eq, ← Action.runAll_append]
    rfl
  rw [htick]
  refine laterActions_invariant (P := fun t ↦ t.engine.currentMaxFreqKhz =
    (s.evaluateThermalPolicy k input.thermalZones).engine.currentMaxFreqKhz) ?_ ?_ ?_ _ _ rfl
  · intro cpuId eppValue t ht
    exact ht
  · intro pressure topConsumers t ht
    rwa [engine_evaluateMemoryPolicy]
  · intro deviceName sample t ht
    unfold scheduleNvme
    split <;> exact ht

/-- A cap is lowered only if the thermal policy has read a temperature above the
passive threshold. -/
theorem LowersCap.anyAbove {input : TickInput} (h : LowersCap k input s) :
    anyAbove kThermalPassiveDefaultMillidegrees input.thermalZones = true := by
  obtain ⟨cpu, cap, cap', hcap, hcap', hlt⟩ := h
  by_contra hcool
  rw [Bool.not_eq_true] at hcool
  have hkept : CapsKept s (s.evaluateThermalPolicy k input.thermalZones) := by
    rw [Action.evaluateThermalPolicy_eq]
    refine Action.runAll_invariant (fun action haction t ht ↦ ?_) (CapsKept.refl s)
    obtain ⟨cpuId, -, rfl⟩ := List.mem_map.mp haction
    exact ht.trans (capsKept_capCore hcool cpuId t)
  obtain ⟨kept, hkept, hle⟩ := hkept cpu cap hcap
  rw [currentMaxFreqKhz_tick, hkept] at hcap'
  obtain rfl := Option.some.inj hcap'
  exact absurd hlt (not_lt.mpr hle)

end Session

theorem classifyActivity_eq_heavy_iff {load : ℚ} {memLevel : MemoryPressureLevel}
    {thermalEvent : Bool} :
    classifyActivity load memLevel thermalEvent = .heavy ↔
      thermalEvent = true ∨ memLevel = .critical := by
  unfold classifyActivity
  split
  · next hheavy => simpa using hheavy
  · next hnot =>
      refine iff_of_false ?_ (by simpa using hnot)
      split
      · exact SystemActivityLevel.noConfusion
      · split <;> exact SystemActivityLevel.noConfusion

namespace TickInput

variable {input : TickInput}

theorem activityLevel_eq_heavy_iff :
    input.activityLevel = .heavy ↔
      Session.anyAbove kThermalPassiveDefaultMillidegrees input.zones = true ∨
        MemGuard.classify input.pressure = .critical :=
  classifyActivity_eq_heavy_iff

theorem sleepMs_eq_iff : input.sleepMs = 200 ↔ input.activityLevel = .heavy := by
  unfold sleepMs
  cases input.activityLevel <;> decide

end TickInput

namespace Session

/-- With a reading above the passive threshold, the core at its maximum is
throttled. -/
theorem lowersCap_coreAtMaximum {input : TickInput}
    (h : anyAbove kThermalPassiveDefaultMillidegrees input.thermalZones = true) :
    LowersCap .willing input coreAtMaximum := by
  refine ⟨0, 3000000, 2850000, rfl, ?_, by decide⟩
  rw [currentMaxFreqKhz_tick, currentMaxFreqKhz_coreAtMaximum, if_pos h]

/-- In any run from any state, a tick that lowers a cap has a reading above the
passive threshold in its thermal policy, and it is a fast one exactly if its first
read of the zones has one too or its first read of the pressure is critical.  With
the same answer from both reads of the zones it is always a fast one, and no less
will do for every state.  The reading may be the leftover of a field that was not
assigned. -/
theorem throttling_ticks_fast :
    (∀ (k : Kernel) (inputs : List TickInput) (s : Session),
      Run.Guarded (fun input s ↦ s.tick k input) (fun input s ↦ LowersCap k input s →
        anyAbove kThermalPassiveDefaultMillidegrees input.thermalZones = true ∧
        (input.activityLevel = .heavy ∧ input.sleepMs = 200 ↔
          anyAbove kThermalPassiveDefaultMillidegrees input.zones = true ∨
            MemGuard.classify input.pressure = .critical)) inputs s) ∧
      ∀ input : TickInput,
        (∀ k s, LowersCap k input s → input.activityLevel = .heavy ∧ input.sleepMs = 200) ↔
          (anyAbove kThermalPassiveDefaultMillidegrees input.thermalZones = true →
            anyAbove kThermalPassiveDefaultMillidegrees input.zones = true ∨
              MemGuard.classify input.pressure = .critical) := by
  have hfast (input : TickInput) : input.activityLevel = .heavy ∧ input.sleepMs = 200 ↔
      anyAbove kThermalPassiveDefaultMillidegrees input.zones = true ∨
        MemGuard.classify input.pressure = .critical := by
    rw [TickInput.sleepMs_eq_iff, and_self, TickInput.activityLevel_eq_heavy_iff]
  refine ⟨fun k ↦ ?_, fun input ↦ ⟨fun h hhot ↦ ?_, fun h k s hlowers ↦ ?_⟩⟩
  · exact Run.guarded_of_forall fun input _ hlowers ↦ ⟨hlowers.anyAbove, hfast input⟩
  · exact (hfast input).mp (h .willing coreAtMaximum (lowersCap_coreAtMaximum hhot))
  · exact (hfast input).mpr (h hlowers.anyAbove)

/-- The first read finds the zone at 70 degrees, the second one at 90. -/
def warmingTick : TickInput :=
  { tickAt 70000 with thermalZones := [⟨[], [], 90000⟩] }

/-- The first tick of a daemon throttles the core and sleeps for eight seconds. -/
theorem not_fast_warmingTick :
    let s := applyInitialState .willing noBlocks
      ⟨PolicyEngine.new [sampleCore], ⟨sampleFiles, [], []⟩⟩
    ¬ (LowersCap .willing warmingTick s →
      warmingTick.activityLevel = .heavy ∧ warmingTick.sleepMs = 200) := by
  intro s h
  have hlowers : LowersCap .willing warmingTick s :=
    ⟨0, 3000000, 2850000, by decide +kernel, by decide +kernel, by decide⟩
  exact absurd (h hlowers).2 (by decide +kernel)

end Session
end BetterCpu
