import BetterCpu.PolicyEngine.Hotter

/-!
# More stress

Two ticks, each of which takes all that it reads from one snapshot of the
sensors.  Under the snapshot with more pressure, more load and hotter zones the
engine is at least as active: it sleeps no longer and asks the cores for no
more saving.
-/

namespace BetterCpu

def SystemActivityLevel.rank : SystemActivityLevel → ℕ
  | .idle => 0
  | .light => 1
  | .moderate => 2
  | .heavy => 3

def MemoryPressureLevel.rank : MemoryPressureLevel → ℕ
  | .healthy => 0
  | .rising => 1
  | .critical => 2

/-- What the sensors show at one moment. -/
structure SensorSnapshot where
  pressure : MemoryPressure
  zones : List ThermalZoneReading
  load : LoadAverage

namespace SensorSnapshot

/-- A tick whose reads all see the snapshot. -/
def tickInput (snapshot : SensorSnapshot) (onlineCores : ℕ)
    (topConsumers : List ProcessMemoryUsage) (blocks : BlockLayer) : TickInput where
  pressure := snapshot.pressure
  zones := snapshot.zones
  load := snapshot.load
  onlineCores := onlineCores
  thermalZones := snapshot.zones
  policyLoad := snapshot.load
  policyOnlineCores := onlineCores
  policyPressure := snapshot.pressure
  topConsumers := topConsumers
  blocks := blocks

/-- The second snapshot shows no less stress in anything that is classified. -/
structure LessStressed (a b : SensorSnapshot) : Prop where
  avg10 : a.pressure.avg10 ≤ b.pressure.avg10
  avg1 : a.load.avg1 ≤ b.load.avg1
  zones : ∀ reading ∈ a.zones, ∃ reading' ∈ b.zones,
    reading.tempMillidegrees ≤ reading'.tempMillidegrees

end SensorSnapshot

def TickInput.targetEpp (input : TickInput) : Int32 :=
  Session.targetEpp input.activityLevel
    (Session.normalizedLoad input.policyLoad input.policyOnlineCores)

/-! ## The threshold functions -/

theorem rank_classify_mono {a b : MemoryPressure} (h : a.avg10 ≤ b.avg10) :
    (MemGuard.classify a).rank ≤ (MemGuard.classify b).rank := by
  have hcritical : 20 < a.avg10 → 20 < b.avg10 := fun ha ↦ ha.trans_le h
  have hrising : 5 ≤ a.avg10 → 5 ≤ b.avg10 := fun ha ↦ ha.trans h
  unfold MemGuard.classify
  split
  · next ha => rw [if_pos (hcritical ha)]
  · split
    · next ha =>
        rw [if_pos (hrising ha)]
        split <;> decide
    · exact Nat.zero_le _

theorem normalizedLoad_mono {a b : LoadAverage} (h : a.avg1 ≤ b.avg1) (onlineCores : ℕ) :
    Session.normalizedLoad a onlineCores ≤ Session.normalizedLoad b onlineCores :=
  div_le_div_of_nonneg_right h (Nat.cast_nonneg _)

theorem rank_classifyActivity_mono {load load' : ℚ} {memLevel memLevel' : MemoryPressureLevel}
    {thermalEvent thermalEvent' : Bool} (hload : load ≤ load')
    (hmem : memLevel.rank ≤ memLevel'.rank)
    (hthermal : thermalEvent = true → thermalEvent' = true) :
    (classifyActivity load memLevel thermalEvent).rank ≤
      (classifyActivity load' memLevel' thermalEvent').rank := by
  have hcritical : memLevel = .critical → memLevel' = .critical := by
    rintro rfl
    revert hmem
    cases memLevel' <;> decide
  have hrising : memLevel = .rising → memLevel' = .critical ∨ memLevel' = .rising := by
    rintro rfl
    revert hmem
    cases memLevel' <;> decide
  have hheavy : kHeavyLoadThreshold < load → kHeavyLoadThreshold < load' :=
    fun h ↦ h.trans_le hload
  have hlight : kIdleLoadThreshold < load → kIdleLoadThreshold < load' :=
    fun h ↦ h.trans_le hload
  simp only [classifyActivity, Bool.or_eq_true, decide_eq_true_eq]
  -- the branches of the first tick, and then those of the second one that are left
  split
  · next h =>
      rw [if_pos (h.imp hthermal hcritical)]
  · split
    · next h =>
        split
        · decide
        · next hnot =>
            have hmoderate : memLevel' = .rising ∨ kHeavyLoadThreshold < load' := by
              rcases h with hmemLevel | hbusy
              · exact Or.inl ((hrising hmemLevel).resolve_left fun hc ↦ hnot (Or.inr hc))
              · exact Or.inr (hheavy hbusy)
            rw [if_pos hmoderate]
    · split
      · next h =>
          rw [if_pos (hlight h)]
          split
          · decide
          · split <;> decide
      · exact Nat.zero_le _

theorem computeSleepIntervalMs_antitone {a b : SystemActivityLevel} (h : a.rank ≤ b.rank) :
    computeSleepIntervalMs b ≤ computeSleepIntervalMs a := by
  revert h
  cases a <;> cases b <;> decide

/-- The preference that is asked for outside of the idle branch. -/
def busyEpp (load : ℚ) : Int32 :=
  if kHeavyLoadThreshold < load then kEppPerformance
  else if load < kLightLoadThreshold then kEppPowerSave
  else kEppBalanced

theorem busyEpp_le (load : ℚ) : busyEpp load ≤ kEppPowerSave := by
  unfold busyEpp
  split
  · decide
  · split <;> decide

theorem busyEpp_antitone {load load' : ℚ} (h : load ≤ load') : busyEpp load' ≤ busyEpp load := by
  have hheavy : kHeavyLoadThreshold < load → kHeavyLoadThreshold < load' :=
    fun hlt ↦ hlt.trans_le h
  have hlight : load' < kLightLoadThreshold → load < kLightLoadThreshold :=
    fun hlt ↦ h.trans_lt hlt
  unfold busyEpp
  split
  · split
    · decide
    · split <;> decide
  · next hnot =>
      rw [if_neg (mt hheavy hnot)]
      split
      · next hlow =>
          rw [if_pos (hlight hlow)]
          exact Int32.le_refl _
      · split <;> decide

/-- An idle tick asks for most saving, and more load never turns a busy tick
into an idle one. -/
theorem targetEpp_antitone {a b : SystemActivityLevel} {load load' : ℚ} (h : a.rank ≤ b.rank)
    (hload : load ≤ load') : Session.targetEpp b load' ≤ Session.targetEpp a load := by
  have hbusy {level : SystemActivityLevel} (hlevel : level ≠ .idle) (load : ℚ) :
      Session.targetEpp level load = busyEpp load := if_neg hlevel
  by_cases hb : b = .idle
  · have ha : a = .idle := by
      revert h
      rw [hb]
      cases a <;> decide
    rw [ha, hb]
    exact Int32.le_refl _
  · rw [hbusy hb]
    by_cases ha : a = .idle
    · rw [ha]
      exact busyEpp_le load'
    · rw [hbusy ha]
      exact busyEpp_antitone hload

/-! ## Two ticks -/

/-- More stress never makes the engine slower or thriftier: with all reads of a
tick from one snapshot and the same positive number of online cores, the
activity level is no lower, the sleep no longer and the preference that is
asked for no higher. -/
theorem more_stress (onlineCores : ℕ) (hcores : 0 < onlineCores) (a b : SensorSnapshot)
    (h : a.LessStressed b) (topConsumers topConsumers' : List ProcessMemoryUsage)
    (blocks blocks' : BlockLayer) :
    let tick := a.tickInput onlineCores topConsumers blocks
    let tick' := b.tickInput onlineCores topConsumers' blocks'
    tick.activityLevel.rank ≤ tick'.activityLevel.rank ∧ tick'.sleepMs ≤ tick.sleepMs ∧
      tick'.targetEpp ≤ tick.targetEpp := by
  intro tick tick'
  have hload := normalizedLoad_mono h.avg1 onlineCores
  have hlevel : tick.activityLevel.rank ≤ tick'.activityLevel.rank := by
    simp only [tick, tick', TickInput.activityLevel, SensorSnapshot.tickInput, if_pos hcores]
    exact rank_classifyActivity_mono hload (rank_classify_mono h.avg10)
      (Session.anyAbove_mono h.zones kThermalPassiveDefaultMillidegrees)
  exact ⟨hlevel, computeSleepIntervalMs_antitone hlevel, targetEpp_antitone hlevel hload⟩

def calmSnapshot : SensorSnapshot := ⟨⟨0, 0, 0⟩, [⟨[], [], 50000⟩], ⟨0, 0, 0⟩⟩

def stressedSnapshot : SensorSnapshot :=
  ⟨⟨6, 0, 0⟩, [⟨[], [], 40000⟩, ⟨[], [], 60000⟩], ⟨4, 0, 0⟩⟩

theorem more_stress_sample :
    (stressedSnapshot.tickInput 4 [] Session.noBlocks).sleepMs ≤
      (calmSnapshot.tickInput 4 [] Session.noBlocks).sleepMs := by
  have hzones : ∀ reading ∈ calmSnapshot.zones, ∃ reading' ∈ stressedSnapshot.zones,
      reading.tempMillidegrees ≤ reading'.tempMillidegrees := by
    simp only [calmSnapshot, stressedSnapshot, List.mem_singleton, forall_eq]
    exact ⟨⟨[], [], 60000⟩, by simp, by decide⟩
  exact (more_stress 4 (by decide) calmSnapshot stressedSnapshot
    ⟨by decide, by decide, hzones⟩ [] [] Session.noBlocks Session.noBlocks).2.1

end BetterCpu
