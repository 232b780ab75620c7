import BetterCpu.PolicyEngine.Hotter

/-!
# Lifting the cap

The cap of a core is lifted when no reading is above the recovery threshold.
Without readings there is none above it, and a zone without a number reads as
what its field held before.  A core that is throttled while no zone shows a
temperature is lifted by the next turn of the policy.
-/

namespace BetterCpu

open Throttle

/-- The temperature that a zone shows: both files open, and the extraction
succeeds. -/
def ZoneFiles.temperature (zone : ZoneFiles) : Option Int64 :=
  match zone.temp, zone.type with
  | some temp, some _ =>
      let (value, s) := (IStream.ofText temp).int64 0
      if s.failed then none else some value
  | _, _ => none

/-- A reading holds the temperature that its zone shows, whatever the field held
before. -/
theorem ZoneFiles.exists_reading_of_temperature {zone : ZoneFiles} {value : Int64}
    (h : zone.temperature = some value) (leftover : Int64) :
    ∃ reading, zone.reading leftover = some reading ∧ reading.tempMillidegrees = value := by
  obtain ⟨zonePath, temp, type⟩ := zone
  cases temp with
  | none => simp [temperature] at h
  | some temp =>
      cases type with
      | none => simp [temperature] at h
      | some type =>
          simp only [temperature, Option.ite_none_left_eq_some, Option.some.injEq] at h
          obtain ⟨hread, rfl⟩ := h
          have hsentry : (IStream.ofText temp).sentry ≠ none := by
            intro hnone
            simp [IStream.int64, hnone, IStream.fail] at hread
          exact ⟨_, rfl, IStream.int64_of_sentry_ne_none hsentry leftover 0⟩

/-- A tick with the files that the thermal policy finds. -/
structure ZoneTick where
  input : TickInput
  zones : List ZoneFiles
  leftover : Text → Int64

namespace ZoneTick

def readings (tick : ZoneTick) : List ThermalZoneReading :=
  readThermalZones tick.leftover tick.zones

def toTickInput (tick : ZoneTick) : TickInput :=
  { tick.input with thermalZones := tick.readings }

/-- Some zone shows a temperature. -/
def Sighted (tick : ZoneTick) : Prop :=
  ∃ zone ∈ tick.zones, zone.temperature.isSome = true

/-- Some reading is above the recovery threshold, be it the leftover of a zone
without a number. -/
def Alarmed (tick : ZoneTick) : Prop :=
  Session.anyAbove kThermalRecoveryMillidegrees tick.readings = true

/-- Every temperature that a zone shows is among the readings. -/
theorem exists_mem_readings {tick : ZoneTick} {zone : ZoneFiles} {value : Int64}
    (hzone : zone ∈ tick.zones) (h : zone.temperature = some value) :
    ∃ reading ∈ tick.readings, reading.tempMillidegrees = value := by
  obtain ⟨reading, hreading, hvalue⟩ :=
    zone.exists_reading_of_temperature h (tick.leftover zone.zonePath)
  exact ⟨reading, List.mem_filterMap.mpr ⟨zone, hzone, hreading⟩, hvalue⟩

theorem heat_readings_eq_cool_iff {tick : ZoneTick} :
    Session.heat tick.readings = .cool ↔ ¬ tick.Alarmed := by
  rw [Alarmed, Bool.not_eq_true]
  constructor
  · intro hcool
    simpa [Session.anyAbove] using Session.heat_eq_cool hcool
  · intro hcalm
    have hpassive : Session.anyAbove kThermalPassiveDefaultMillidegrees tick.readings = false := by
      simp only [Session.anyAbove, List.any_eq_false, decide_eq_true_eq] at hcalm ⊢
      intro reading hreading habove
      exact hcalm reading hreading (Int64.lt_trans (by decide) habove)
    simp [Session.heat, hpassive, hcalm]

end ZoneTick

namespace Session

def zoneTick (k : Kernel) (tick : ZoneTick) (s : Session) : Session :=
  s.tick k tick.toTickInput

/-- If the policy raises the maximum that some core shows to the original one,
then some zone shows a temperature, and none that is shown is above the recovery
threshold. -/
def LiftsOnEvidence (k : Kernel) (tick : ZoneTick) (s : Session) : Prop :=
  ∀ cpu original, s.engine.originalMaxFreqKhz cpu = some original →
    Governor.currentMaxFreqKhz s.world.files cpu < original →
    Governor.currentMaxFreqKhz (s.evaluateThermalPolicy k tick.readings).world.files cpu =
      original →
    tick.Sighted ∧ ∀ zone ∈ tick.zones, ∀ value, zone.temperature = some value →
      value ≤ kThermalRecoveryMillidegrees

/-- No core is recorded below its original maximum. -/
def Unthrottled (s : Session) : Prop :=
  ∀ cpu ∈ onlineIds s.engine.cores,
    s.engine.currentMaxFreqKhz cpu = s.engine.originalMaxFreqKhz cpu

/-! ## What a turn of the policy does to the shown maximum -/

variable {k : Kernel} {cpu : Int32} {original cap : UInt64} {s : Session}
  {readings : List ThermalZoneReading}

theorem shown_writeValue_cases (k : Kernel) (cpu : Int32) (freqKhz : UInt64) (w : World) :
    let w' := (Governor.setMaxFreqKhz k cpu freqKhz w).2
    Governor.currentMaxFreqKhz w'.files cpu = Governor.currentMaxFreqKhz w.files cpu ∨
      Governor.currentMaxFreqKhz w'.files cpu = freqKhz := by
  intro w'
  rcases World.writeValue_files_cases k (.scalingMaxFreq cpu) (Text.decimal freqKhz.toNat) w with
    hsame | ⟨-, -, hupdate⟩
  · exact Or.inl (Sysfs.currentMaxFreqKhz_congr (Sysfs.value_congr (congrFun hsame _)))
  · right
    have hfile : w'.files (.scalingMaxFreq cpu) =
        some ((Attr.scalingMaxFreq cpu).shown (Text.decimal freqKhz.toNat)) :=
      (congrFun hupdate _).trans (Function.update_self _ _ _)
    rw [Sysfs.currentMaxFreqKhz_eq_iff (by simp [hfile]), Sysfs.value, hfile, Option.map_some,
      Attr.reading_shown_maxFreq]

theorem shown_capCore_of_ne {other : Int32} (hne : cpu ≠ other) :
    Governor.currentMaxFreqKhz (s.capCore k readings other).world.files cpu =
      Governor.currentMaxFreqKhz s.world.files cpu :=
  Sysfs.currentMaxFreqKhz_congr (Sysfs.value_congr
    ((capCore_writes k readings other s).frame _ (by simpa using hne)))

/-- Unless the zones are cool, what is written is below the recorded cap. -/
theorem Capped.shown_capCore_lt (h : Capped cpu original cap s) (hheat : heat readings ≠ .cool)
    (hlt : Governor.currentMaxFreqKhz s.world.files cpu < original) :
    Governor.currentMaxFreqKhz (s.capCore k readings cpu).world.files cpu < original := by
  have hstep := thermalTarget_eq_step readings h.mem_Icc.2
  have hle : step reduce (original / 2) original (heat readings) cap ≤ cap := by
    cases hcase : heat readings with
    | cool => exact absurd hcase hheat
    | warm => exact le_rfl
    | hot => exact max_le (reduce_le cap) h.mem_Icc.1
  unfold Session.capCore
  simp only [h.original_eq, h.current_eq, Option.getD_some, hstep]
  split
  · next hne =>
      have htarget : step reduce (original / 2) original (heat readings) cap < original :=
        lt_of_lt_of_le (lt_of_le_of_ne hle hne) h.mem_Icc.2
      rcases shown_writeValue_cases k cpu
        (step reduce (original / 2) original (heat readings) cap) s.world with hsame | hwritten
      · exact hsame.trans_lt hlt
      · exact hwritten.trans_lt htarget
  · exact hlt

theorem Capped.shown_evaluateThermalPolicy_lt (h : Capped cpu original cap s)
    (hheat : heat readings ≠ .cool)
    (hlt : Governor.currentMaxFreqKhz s.world.files cpu < original) :
    Governor.currentMaxFreqKhz (s.evaluateThermalPolicy k readings).world.files cpu <
      original := by
  rw [Action.evaluateThermalPolicy_eq, thermalActions]
  generalize onlineIds s.engine.cores = ids
  induction ids generalizing s cap with
  | nil => exact hlt
  | cons other ids ih =>
      obtain ⟨mid, hmid, -⟩ := h.capCore (k := k) readings other
      apply ih hmid
      by_cases heq : cpu = other
      · subst heq
        exact h.shown_capCore_lt hheat hlt
      · exact (shown_capCore_of_ne heq).trans_lt hlt

/-- Where nothing is throttled, cool zones leave nothing to do. -/
theorem evaluateThermalPolicy_of_unthrottled (hcool : heat readings = .cool)
    (hcapped : ∀ cpu ∈ onlineIds s.engine.cores, ∃ original cap, Capped cpu original cap s)
    (hs : s.Unthrottled) : s.evaluateThermalPolicy k readings = s := by
  rw [Action.evaluateThermalPolicy_eq, thermalActions]
  have hturn : ∀ cpu ∈ onlineIds s.engine.cores, s.capCore k readings cpu = s := by
    intro cpu hcpu
    obtain ⟨original, cap, h⟩ := hcapped cpu hcpu
    obtain rfl : cap = original := by
      have heq := hs cpu hcpu
      rw [h.current_eq, h.original_eq] at heq
      exact Option.some.inj heq
    have htarget : thermalTarget readings cap cap = cap := by
      rw [thermalTarget_eq_step readings le_rfl, hcool]
      rfl
    simp [Session.capCore, h.original_eq, h.current_eq, htarget]
  apply Action.runAll_invariant (P := fun t ↦ t = s) _ rfl
  rintro action haction t rfl
  obtain ⟨cpu, hcpu, rfl⟩ := List.mem_map.mp haction
  exact hturn cpu hcpu

/-! ## Ticks -/

theorem Capped.laterActions (h : Capped cpu original cap s) (cores : List CpuCoreInfo)
    (input : TickInput) :
    Capped cpu original cap (Action.runAll k (Session.laterActions cores input) s) := by
  refine laterActions_invariant (P := Capped cpu original cap) ?_ ?_ ?_ cores input h
  · intro other eppValue t ht
    exact ⟨ht.original_eq, ht.current_eq, ht.mem_Icc⟩
  · intro pressure topConsumers t ht
    refine ⟨?_, ?_, ht.mem_Icc⟩
    · simpa using ht.original_eq
    · simpa using ht.current_eq
  · intro deviceName sample t ht
    unfold Session.scheduleNvme
    split <;> exact ⟨ht.original_eq, ht.current_eq, ht.mem_Icc⟩

theorem zoneTick_eq (k : Kernel) (tick : ZoneTick) (s : Session) :
    s.zoneTick k tick = Action.runAll k (laterActions s.engine.cores tick.toTickInput)
      (s.evaluateThermalPolicy k tick.readings) := by
  rw [Action.evaluateThermalPolicy_eq, ← Action.runAll_append]
  exact Action.tick_eq k tick.toTickInput s

/-- Every online core has an original maximum and a recorded cap. -/
def AllCapped (cores : List CpuCoreInfo) (s : Session) : Prop :=
  s.engine.cores = cores ∧ ∀ cpu ∈ onlineIds cores, ∃ original cap, Capped cpu original cap s

theorem AllCapped.zoneTick {cores : List CpuCoreInfo} (h : AllCapped cores s) (k : Kernel)
    (tick : ZoneTick) : AllCapped cores (s.zoneTick k tick) := by
  obtain ⟨hcores, hcapped⟩ := h
  refine ⟨?_, fun cpu hcpu ↦ ?_⟩
  · rw [zoneTick_eq, Action.evaluateThermalPolicy_eq]
    simpa using hcores
  · obtain ⟨original, cap, hcap⟩ := hcapped cpu hcpu
    obtain ⟨cap', hcap', -⟩ := hcap.evaluateThermalPolicy (k := k) tick.readings
    rw [zoneTick_eq]
    exact ⟨original, cap', hcap'.laterActions _ _⟩

theorem shown_evaluateThermalPolicy_of_notMem (hcpu : cpu ∉ onlineIds s.engine.cores) :
    Governor.currentMaxFreqKhz (s.evaluateThermalPolicy k readings).world.files cpu =
      Governor.currentMaxFreqKhz s.world.files cpu := by
  have hwrites := Action.runAll_writes k (thermalActions s.engine.cores readings) s
  rw [← Action.evaluateThermalPolicy_eq] at hwrites
  apply Sysfs.currentMaxFreqKhz_congr (Sysfs.value_congr (hwrites.frame _ _))
  simpa [thermalActions, Action.targets] using hcpu

/-- Ticks that see a temperature, read an alarm or find nothing throttled lift
no cap without evidence. -/
theorem AllCapped.liftsOnEvidence {cores : List CpuCoreInfo} (h : AllCapped cores s)
    {tick : ZoneTick} (hcond : tick.Sighted ∨ tick.Alarmed ∨ s.Unthrottled) :
    LiftsOnEvidence k tick s := by
  obtain ⟨rfl, hcapped⟩ := h
  intro cpu original horiginal hlt hlift
  have hcpu : cpu ∈ onlineIds s.engine.cores := by
    by_contra hnot
    rw [shown_evaluateThermalPolicy_of_notMem hnot] at hlift
    exact hlt.ne hlift
  obtain ⟨original', cap, hcap⟩ := hcapped cpu hcpu
  obtain rfl : original' = original := by
    rw [hcap.original_eq] at horiginal
    exact Option.some.inj horiginal
  have hcool : heat tick.readings = .cool := by
    by_contra hheat
    exact (hcap.shown_evaluateThermalPolicy_lt hheat hlt).ne hlift
  rcases hcond with hsighted | halarmed | hun
  · refine ⟨hsighted, fun zone hzone value hvalue ↦ ?_⟩
    obtain ⟨reading, hreading, rfl⟩ := ZoneTick.exists_mem_readings hzone hvalue
    exact heat_eq_cool hcool reading hreading
  · exact absurd halarmed (ZoneTick.heat_readings_eq_cool_iff.mp hcool)
  · rw [evaluateThermalPolicy_of_unthrottled hcool hcapped hun] at hlift
    exact absurd hlift hlt.ne

/-! ## Kernels that accept the caps -/

/-- Every online core has a cap that its attribute shows. -/
def AllEnforced (cores : List CpuCoreInfo) (s : Session) : Prop :=
  s.engine.cores = cores ∧ ∀ cpu ∈ onlineIds cores, ∃ original cap, Enforced cpu original cap s

theorem AllEnforced.allCapped {cores : List CpuCoreInfo} (h : AllEnforced cores s) :
    AllCapped cores s := by
  refine ⟨h.1, fun cpu hcpu ↦ ?_⟩
  obtain ⟨original, cap, hcap⟩ := h.2 cpu hcpu
  exact ⟨original, cap, hcap.toCapped⟩

/-- Accepted writes move the cap by at least one step of the throttle. -/
theorem Enforced.evaluateThermalPolicy (h : Enforced cpu original cap s)
    (hk : ∀ count files value, k count files (.scalingMaxFreq cpu) value = .accepted)
    (readings : List ThermalZoneReading) :
    ∃ cap', Enforced cpu original cap' (s.evaluateThermalPolicy k readings) ∧
      (cpu ∈ onlineIds s.engine.cores → heat readings = .cool → cap' = original) := by
  rw [Action.evaluateThermalPolicy_eq, thermalActions]
  generalize onlineIds s.engine.cores = ids
  induction ids using List.reverseRecOn with
  | nil => exact ⟨cap, h, by simp⟩
  | append_singleton ids other ih =>
      obtain ⟨mid, hmid, hlifted⟩ := ih
      rw [List.map_append, Action.runAll_append]
      by_cases heq : cpu = other
      · subst heq
        refine ⟨_, hmid.capCore_self hk readings, fun _ hcool ↦ ?_⟩
        rw [hcool]
        rfl
      · refine ⟨mid, hmid.capCore_of_ne readings heq, fun hcpu hcool ↦ hlifted ?_ hcool⟩
        simpa [heq] using hcpu

theorem AllEnforced.zoneTick {cores : List CpuCoreInfo} (h : AllEnforced cores s)
    (hk : ∀ cpu ∈ onlineIds cores, ∀ count files value,
      k count files (.scalingMaxFreq cpu) value = .accepted)
    (tick : ZoneTick) : AllEnforced cores (s.zoneTick k tick) := by
  refine ⟨(h.allCapped.zoneTick k tick).1, fun cpu hcpu ↦ ?_⟩
  obtain ⟨original, cap, hcap⟩ := h.2 cpu hcpu
  obtain ⟨cap', hcap', -⟩ := hcap.evaluateThermalPolicy (hk cpu hcpu) tick.readings
  rw [zoneTick_eq]
  exact ⟨original, cap', hcap'.laterActions _ _⟩

theorem AllEnforced.liftsOnEvidence_iff {cores : List CpuCoreInfo} (h : AllEnforced cores s)
    (hk : ∀ cpu ∈ onlineIds cores, ∀ count files value,
      k count files (.scalingMaxFreq cpu) value = .accepted)
    {tick : ZoneTick} :
    LiftsOnEvidence k tick s ↔ tick.Sighted ∨ tick.Alarmed ∨ s.Unthrottled := by
  constructor
  · intro hlifts
    by_contra hcond
    simp only [not_or] at hcond
    obtain ⟨hblind, hcalm, hthrottled⟩ := hcond
    obtain ⟨rfl, henforced⟩ := h
    obtain ⟨cpu, hcpu, hne⟩ : ∃ cpu ∈ onlineIds s.engine.cores,
        s.engine.currentMaxFreqKhz cpu ≠ s.engine.originalMaxFreqKhz cpu := by
      simpa [Unthrottled] using hthrottled
    obtain ⟨original, cap, hcap⟩ := henforced cpu hcpu
    have hlt : cap < original := by
      apply lt_of_le_of_ne hcap.mem_Icc.2
      rintro rfl
      exact hne (hcap.current_eq.trans hcap.original_eq.symm)
    obtain ⟨cap', hcap', hlifted⟩ := hcap.evaluateThermalPolicy (hk cpu hcpu) tick.readings
    have hcool := ZoneTick.heat_readings_eq_cool_iff.mpr hcalm
    have hevidence := hlifts cpu original hcap.original_eq (hcap.shown.trans_lt hlt)
      (hcap'.shown.trans (hlifted hcpu hcool))
    exact hblind hevidence.1
  · exact h.allCapped.liftsOnEvidence

/-! ## Runs -/

/-- A run lifts no cap without evidence if each of its ticks finds a zone that
shows a temperature, a reading above the recovery threshold, or no core that is
recorded below its original maximum; if the kernel accepts the caps, it does so
only then. -/
theorem guarded_liftsOnEvidence (k : Kernel) (blocks : BlockLayer) (cores : List CpuCoreInfo)
    (w : World) (ticks : List ZoneTick) :
    let s := applyInitialState k blocks ⟨PolicyEngine.new cores, w⟩
    let guarded := Run.Guarded (zoneTick k)
      (fun tick s ↦ tick.Sighted ∨ tick.Alarmed ∨ s.Unthrottled) ticks s
    (guarded → Run.Guarded (zoneTick k) (LiftsOnEvidence k) ticks s) ∧
      ((∀ cpu ∈ onlineIds cores, ∀ count files value,
          k count files (.scalingMaxFreq cpu) value = .accepted) →
        (Run.Guarded (zoneTick k) (LiftsOnEvidence k) ticks s ↔ guarded)) := by
  intro s guarded
  have hcores : s.engine.cores = cores := by
    simp only [s, Action.applyInitialState_eq, Action.cores_runAll]
    rfl
  have hinitial : AllEnforced cores s := ⟨hcores, fun cpu hcpu ↦
    ⟨_, _, applyInitialState_enforced k blocks (s := ⟨PolicyEngine.new cores, w⟩) hcpu⟩⟩
  have hforward : guarded → Run.Guarded (zoneTick k) (LiftsOnEvidence k) ticks s :=
    Run.Guarded.imp (fun tick _ ht ↦ ht.zoneTick k tick) (fun _ _ ht ↦ ht.liftsOnEvidence)
      hinitial.allCapped
  refine ⟨hforward, fun hk ↦ ⟨?_, hforward⟩⟩
  exact Run.Guarded.imp (fun tick _ ht ↦ ht.zoneTick hk tick)
    (fun _ _ ht ↦ (ht.liftsOnEvidence_iff hk).mp) hinitial

/-- One tick at 90 degrees, and one that can open no file of the zone. -/
def blindTicks : List ZoneTick :=
  let zone (temp type : Option Text) : ZoneFiles := ⟨['z'], temp, type⟩
  [⟨tickAt 90000, [zone (some ['9', '0', '0', '0', '0', '\n']) (some ['x', '\n'])], fun _ ↦ 0⟩,
    ⟨tickAt 90000, [zone none none], fun _ ↦ 0⟩]

theorem not_guarded_liftsOnEvidence_blindTicks :
    ¬ Run.Guarded (zoneTick .willing) (LiftsOnEvidence .willing) blindTicks
      (applyInitialState .willing noBlocks
        ⟨PolicyEngine.new [sampleCore], ⟨sampleFiles, [], []⟩⟩) := by
  rintro ⟨-, hlast, -⟩
  have h := hlast 0 3000000 (by decide +kernel) (by decide +kernel) (by decide +kernel)
  obtain ⟨zone, hzone, hshown⟩ := h.1
  obtain rfl := List.mem_singleton.mp hzone
  exact Bool.false_ne_true hshown

theorem guarded_liftsOnEvidence_sample :
    Run.Guarded (zoneTick .willing) (LiftsOnEvidence .willing) (blindTicks.take 1)
      (applyInitialState .willing noBlocks
        ⟨PolicyEngine.new [sampleCore], ⟨sampleFiles, [], []⟩⟩) := by
  apply (guarded_liftsOnEvidence .willing noBlocks [sampleCore] ⟨sampleFiles, [], []⟩
    (blindTicks.take 1)).1
  exact ⟨Or.inl ⟨_, List.mem_cons_self, by decide⟩, trivial⟩

end Session
end BetterCpu
