import BetterCpu.PolicyEngine.Thermal

/-!
# Zones that cannot be read

The temperature of a zone whose file opens but yields no number is whatever the
uninitialized reading held.  It takes part in the thermal decisions unless an
assigned temperature is above the passive threshold anyway.
-/

namespace BetterCpu

open Throttle

/-! ## Assigned and unassigned temperatures -/

/-- Both files open, but the extraction finds nothing to extract. -/
def ZoneFiles.Unassigned (zone : ZoneFiles) : Prop :=
  ∃ temp type, zone.temp = some temp ∧ zone.type = some type ∧ (IStream.ofText temp).sentry = none

/-- Both files open, and the extraction assigns a temperature above the
threshold. -/
def ZoneFiles.AssignedAbove (threshold : Int64) (zone : ZoneFiles) : Prop :=
  ∃ temp type, zone.temp = some temp ∧ zone.type = some type ∧
    (IStream.ofText temp).sentry ≠ none ∧ threshold < ((IStream.ofText temp).int64 0).1

/-- Every temperature is assigned, or one that is assigned is above the passive
threshold. -/
def Determined (zones : List ZoneFiles) : Prop :=
  (∀ zone ∈ zones, ¬ zone.Unassigned) ∨
    ∃ zone ∈ zones, zone.AssignedAbove kThermalPassiveDefaultMillidegrees

theorem ZoneFiles.reading_above_iff {leftover threshold : Int64} {zone : ZoneFiles} :
    (∃ reading, zone.reading leftover = some reading ∧ threshold < reading.tempMillidegrees) ↔
      zone.Unassigned ∧ threshold < leftover ∨ zone.AssignedAbove threshold := by
  obtain ⟨zonePath, temp, type⟩ := zone
  cases temp with
  | none => simp [reading, Unassigned, AssignedAbove]
  | some temp =>
      cases type with
      | none => simp [reading, Unassigned, AssignedAbove]
      | some type =>
          by_cases hsentry : (IStream.ofText temp).sentry = none
          · simp [reading, Unassigned, AssignedAbove, hsentry,
              IStream.int64_of_sentry_eq_none hsentry]
          · simp [reading, Unassigned, AssignedAbove, hsentry,
              IStream.int64_of_sentry_ne_none hsentry leftover 0]

theorem anyAbove_readThermalZones {threshold : Int64} {leftover : Text → Int64}
    {zones : List ZoneFiles} :
    Session.anyAbove threshold (readThermalZones leftover zones) = true ↔
      ∃ zone ∈ zones, zone.Unassigned ∧ threshold < leftover zone.zonePath ∨
        zone.AssignedAbove threshold := by
  simp only [Session.anyAbove, readThermalZones, List.any_eq_true, List.mem_filterMap,
    decide_eq_true_eq, ← ZoneFiles.reading_above_iff]
  constructor
  · rintro ⟨reading, ⟨zone, hzone, hreading⟩, habove⟩
    exact ⟨zone, hzone, reading, hreading, habove⟩
  · rintro ⟨zone, hzone, reading, hreading, habove⟩
    exact ⟨reading, ⟨zone, hzone, hreading⟩, habove⟩

theorem anyAbove_of_assigned {threshold : Int64} {zones : List ZoneFiles}
    (h : ∃ zone ∈ zones, zone.AssignedAbove threshold) (leftover : Text → Int64) :
    Session.anyAbove threshold (readThermalZones leftover zones) = true := by
  obtain ⟨zone, hzone, habove⟩ := h
  exact anyAbove_readThermalZones.mpr ⟨zone, hzone, Or.inr habove⟩

theorem anyAbove_congr_of_assigned {zones : List ZoneFiles}
    (h : ∀ zone ∈ zones, ¬ zone.Unassigned) (threshold : Int64)
    (leftover leftover' : Text → Int64) :
    Session.anyAbove threshold (readThermalZones leftover zones) =
      Session.anyAbove threshold (readThermalZones leftover' zones) := by
  rw [Bool.eq_iff_iff, anyAbove_readThermalZones, anyAbove_readThermalZones]
  apply exists_congr
  intro zone
  apply and_congr_right
  intro hzone
  simp [h zone hzone]

/-- What the two thresholds see in determined zones does not depend on the
leftovers. -/
theorem Determined.heat_eq {zones : List ZoneFiles} (h : Determined zones)
    (leftover leftover' : Text → Int64) :
    Session.heat (readThermalZones leftover zones) =
      Session.heat (readThermalZones leftover' zones) := by
  unfold Session.heat
  rcases h with hassigned | hhot
  · rw [anyAbove_congr_of_assigned hassigned _ leftover leftover',
      anyAbove_congr_of_assigned hassigned _ leftover leftover']
  · simp [anyAbove_of_assigned hhot]

theorem Determined.thermalEvent_eq {zones : List ZoneFiles} (h : Determined zones)
    (leftover leftover' : Text → Int64) :
    Session.anyAbove kThermalPassiveDefaultMillidegrees (readThermalZones leftover zones) =
      Session.anyAbove kThermalPassiveDefaultMillidegrees (readThermalZones leftover' zones) := by
  rcases h with hassigned | hhot
  · exact anyAbove_congr_of_assigned hassigned _ leftover leftover'
  · rw [anyAbove_of_assigned hhot, anyAbove_of_assigned hhot]

/-- In zones that are not determined, the leftovers alone decide whether there
is a thermal event. -/
theorem anyAbove_of_not_determined {zones : List ZoneFiles} (h : ¬ Determined zones)
    (leftover : Int64) :
    Session.anyAbove kThermalPassiveDefaultMillidegrees
        (readThermalZones (fun _ ↦ leftover) zones) =
      decide (kThermalPassiveDefaultMillidegrees < leftover) := by
  simp only [Determined, not_or, not_forall, not_not] at h
  obtain ⟨⟨zone, hzone, hunassigned⟩, hcool⟩ := h
  rw [Bool.eq_iff_iff, anyAbove_readThermalZones, decide_eq_true_eq]
  constructor
  · rintro ⟨other, hother, ⟨-, habove⟩ | hassigned⟩
    · exact habove
    · exact absurd ⟨other, hother, hassigned⟩ hcool
  · intro habove
    exact ⟨zone, hzone, Or.inl ⟨hunassigned, habove⟩⟩

/-! ## The thermal policy depends on the heat only -/

namespace Session

theorem thermalTarget_eq (readings : List ThermalZoneReading) (original cap : UInt64) :
    thermalTarget readings original cap =
      match heat readings with
      | .hot => if cap - cap / 20 < original / 2 then original / 2 else cap - cap / 20
      | .warm => cap
      | .cool => if cap < original then original else cap := by
  unfold thermalTarget heat
  by_cases hpassive : anyAbove kThermalPassiveDefaultMillidegrees readings = true
  · simp [hpassive]
  · by_cases hrecovery : anyAbove kThermalRecoveryMillidegrees readings = true
    · simp [hpassive, hrecovery]
    · simp [hpassive, hrecovery]

theorem evaluateThermalPolicy_congr {readings readings' : List ThermalZoneReading}
    (h : heat readings = heat readings') (k : Kernel) (s : Session) :
    s.evaluateThermalPolicy k readings = s.evaluateThermalPolicy k readings' := by
  have hcore : capCore k readings = capCore k readings' := by
    funext cpu t
    simp only [capCore, thermalTarget_eq, h]
  simp only [evaluateThermalPolicy, hcore]

end Session

/-! ## Two ticks that differ in the leftovers -/

def TickInput.withZones (input : TickInput) (zones thermalZones : List ThermalZoneReading) :
    TickInput :=
  { input with zones := zones, thermalZones := thermalZones }

/-- The core has the same cap in both, recorded and shown. -/
def SameCap (cpu : Int32) (s s' : Session) : Prop :=
  s.engine.currentMaxFreqKhz cpu = s'.engine.currentMaxFreqKhz cpu ∧
    Governor.currentMaxFreqKhz s.world.files cpu = Governor.currentMaxFreqKhz s'.world.files cpu

/-- Whatever the state and the rest of the tick are, the leftovers of the two
times that a tick reads the zones have no part in the caps and in the activity
level. -/
def IgnoresLeftovers (zones policyZones : List ZoneFiles) : Prop :=
  ∀ (k : Kernel) (s : Session) (input : TickInput)
    (leftover leftover' policyLeftover policyLeftover' : Text → Int64),
    let tick := input.withZones (readThermalZones leftover zones)
      (readThermalZones policyLeftover policyZones)
    let tick' := input.withZones (readThermalZones leftover' zones)
      (readThermalZones policyLeftover' policyZones)
    (∀ cpu, SameCap cpu (s.evaluateThermalPolicy k tick.thermalZones)
      (s.evaluateThermalPolicy k tick'.thermalZones)) ∧
    tick.activityLevel = tick'.activityLevel

/-- One core at its maximum, and a machine that is idle. -/
def coreAtMaximum : Session where
  engine := { PolicyEngine.new [Session.sampleCore] with
    originalMaxFreqKhz := fun _ ↦ some 3000000
    currentMaxFreqKhz := fun _ ↦ some 3000000 }
  world := ⟨Session.sampleFiles, [], []⟩

def idleTick : TickInput where
  pressure := ⟨0, 0, 0⟩
  zones := []
  load := ⟨0, 0, 0⟩
  onlineCores := 0
  thermalZones := []
  policyLoad := ⟨0, 0, 0⟩
  policyOnlineCores := 0
  policyPressure := ⟨0, 0, 0⟩
  topConsumers := []
  blocks := Session.noBlocks

theorem currentMaxFreqKhz_coreAtMaximum (readings : List ThermalZoneReading) :
    (coreAtMaximum.evaluateThermalPolicy .willing readings).engine.currentMaxFreqKhz 0 =
      some (if Session.anyAbove kThermalPassiveDefaultMillidegrees readings then 2850000
        else 3000000) := by
  have hok : (Governor.setMaxFreqKhz .willing 0 2850000 coreAtMaximum.world).1 = true := by decide
  have hpolicy : coreAtMaximum.evaluateThermalPolicy .willing readings =
      coreAtMaximum.capCore .willing readings 0 := rfl
  have horiginal : coreAtMaximum.engine.originalMaxFreqKhz 0 = some 3000000 := rfl
  have hcurrent : coreAtMaximum.engine.currentMaxFreqKhz 0 = some 3000000 := rfl
  rw [hpolicy, Session.capCore]
  simp only [horiginal, hcurrent, Option.getD_some, Session.thermalTarget]
  cases habove : Session.anyAbove kThermalPassiveDefaultMillidegrees readings with
  | true => simp [setAndRecord, hok]
  | false => simp [hcurrent]

theorem activityLevel_idleTick (zones thermalZones : List ThermalZoneReading) :
    (idleTick.withZones zones thermalZones).activityLevel =
      if Session.anyAbove kThermalPassiveDefaultMillidegrees zones then .heavy else .idle := by
  have hpressure : MemGuard.classify ⟨0, 0, 0⟩ = .healthy := by norm_num [MemGuard.classify]
  have hheavy : ¬ kHeavyLoadThreshold < 0 := by norm_num [kHeavyLoadThreshold]
  have hidle : ¬ kIdleLoadThreshold < 0 := by norm_num [kIdleLoadThreshold]
  simp only [TickInput.activityLevel, TickInput.withZones, idleTick, hpressure, lt_irrefl, if_false,
    classifyActivity, hheavy, hidle, reduceCtorEq, decide_false, Bool.or_false]

/-- The leftovers have no part in the decisions if and only if both times every
zone that opens yields a temperature, or some temperature that is yielded is
above the passive threshold. -/
theorem ignoresLeftovers_iff (zones policyZones : List ZoneFiles) :
    IgnoresLeftovers zones policyZones ↔ Determined zones ∧ Determined policyZones := by
  constructor
  · intro h
    constructor
    · by_contra hzones
      have hlevel := (h .willing coreAtMaximum idleTick (fun _ ↦ 90000) (fun _ ↦ 0)
        (fun _ ↦ 0) (fun _ ↦ 0)).2
      rw [activityLevel_idleTick, activityLevel_idleTick, anyAbove_of_not_determined hzones,
        anyAbove_of_not_determined hzones] at hlevel
      revert hlevel
      decide
    · by_contra hzones
      have hcap := ((h .willing coreAtMaximum idleTick (fun _ ↦ 0) (fun _ ↦ 0)
        (fun _ ↦ 90000) (fun _ ↦ 0)).1 0).1
      simp only [TickInput.withZones] at hcap
      rw [currentMaxFreqKhz_coreAtMaximum, currentMaxFreqKhz_coreAtMaximum,
        anyAbove_of_not_determined hzones, anyAbove_of_not_determined hzones] at hcap
      revert hcap
      decide
  · rintro ⟨hzones, hpolicy⟩ k s input leftover leftover' policyLeftover policyLeftover'
    constructor
    · intro cpu
      simp only [TickInput.withZones]
      rw [Session.evaluateThermalPolicy_congr
        (hpolicy.heat_eq policyLeftover policyLeftover') k s]
      exact ⟨rfl, rfl⟩
    · simp only [TickInput.activityLevel, TickInput.withZones]
      rw [hzones.thermalEvent_eq leftover leftover']
      rfl

def emptyZone : ZoneFiles := ⟨[], some [], some []⟩

/-- A zone whose file is empty: with 90 degrees left in the reading the core is
throttled, with 0 it is not. -/
theorem not_ignoresLeftovers_emptyZone : ¬ IgnoresLeftovers [emptyZone] [emptyZone] := by
  intro h
  have hcap := ((h .willing coreAtMaximum idleTick (fun _ ↦ 0) (fun _ ↦ 0) (fun _ ↦ 90000)
    (fun _ ↦ 0)).1 0).1
  revert hcap
  decide +kernel

end BetterCpu
