import BetterCpu.Knobs
import BetterCpu.Library.Throttle
import BetterCpu.PolicyEngine.Actions

/-!
# The thermal policy

The policy moves the cap of every online core as a throttle between half of
the original maximum and the maximum.  A refused write leaves the recorded cap
where it is, so the throttle's invariant holds under every pattern of failures.
-/

namespace BetterCpu

open Throttle

/-- The unsigned order of the machine words. -/
instance linearOrderUInt64 : LinearOrder UInt64 where
  le_refl := UInt64.le_refl
  le_trans _ _ _ := UInt64.le_trans
  lt_iff_le_not_ge _ _ := by grind
  le_antisymm _ _ := UInt64.le_antisymm
  le_total := UInt64.le_total
  toDecidableLE := inferInstance
  toDecidableLT := inferInstance
  toDecidableEq := inferInstance

namespace Session

/-- How hot the zones are: above the passive threshold, above the recovery
threshold only, or below both. -/
def heat (readings : List ThermalZoneReading) : Heat :=
  if anyAbove kThermalPassiveDefaultMillidegrees readings then .hot
  else if anyAbove kThermalRecoveryMillidegrees readings then .warm
  else .cool

def reduce (cap : UInt64) : UInt64 :=
  cap - cap / 20

theorem div_twenty_le (cap : UInt64) : cap / 20 ≤ cap := by
  rw [UInt64.le_iff_toNat_le, UInt64.toNat_div]
  exact Nat.div_le_self _ _

theorem toNat_reduce (cap : UInt64) : (reduce cap).toNat = cap.toNat - cap.toNat / 20 := by
  rw [reduce, UInt64.toNat_sub_of_le _ _ (div_twenty_le cap), UInt64.toNat_div]
  rfl

theorem reduce_le (cap : UInt64) : reduce cap ≤ cap := by
  rw [UInt64.le_iff_toNat_le, toNat_reduce]
  exact Nat.sub_le _ _

theorem half_le (original : UInt64) : original / 2 ≤ original := by
  rw [UInt64.le_iff_toNat_le, UInt64.toNat_div]
  exact Nat.div_le_self _ _

/-- The target of the policy is the step of the throttle. -/
theorem thermalTarget_eq_step (readings : List ThermalZoneReading) {original cap : UInt64}
    (hcap : cap ≤ original) :
    thermalTarget readings original cap =
      step reduce (original / 2) original (heat readings) cap := by
  unfold thermalTarget heat
  split
  · simp only [step, reduce, max_def]
    split <;> split <;> grind
  · split
    · next hcool =>
        simp only [Bool.and_eq_true, Bool.not_eq_true'] at hcool
        simp [hcool.1, step]
    · next hnot =>
        split
        · rfl
        · next hcool =>
            have : cap = original := by
              simp only [hcool, Bool.not_false, Bool.true_and, decide_eq_true_eq] at hnot
              exact le_antisymm hcap (not_lt.mp hnot)
            rw [this]
            rfl

theorem heat_eq_hot {readings : List ThermalZoneReading} (h : heat readings = .hot) :
    ∃ reading ∈ readings, kThermalPassiveDefaultMillidegrees < reading.tempMillidegrees := by
  unfold heat at h
  split at h
  · next hhot => simpa [anyAbove] using hhot
  · split at h <;> simp at h

theorem heat_eq_cool {readings : List ThermalZoneReading} (h : heat readings = .cool) :
    ∀ reading ∈ readings, reading.tempMillidegrees ≤ kThermalRecoveryMillidegrees := by
  unfold heat at h
  split at h
  · simp at h
  · split at h
    · simp at h
    · next hcool => simpa [anyAbove] using hcool

theorem heat_eq_warm {readings : List ThermalZoneReading}
    (hwarm : ∃ reading ∈ readings, kThermalRecoveryMillidegrees < reading.tempMillidegrees)
    (hnot : ∀ reading ∈ readings,
      reading.tempMillidegrees ≤ kThermalPassiveDefaultMillidegrees) :
    heat readings = .warm := by
  have hrecovery : anyAbove kThermalRecoveryMillidegrees readings = true := by
    simpa [anyAbove] using hwarm
  have hpassive : anyAbove kThermalPassiveDefaultMillidegrees readings = false := by
    simpa [anyAbove] using hnot
  simp [heat, hrecovery, hpassive]

/-! ## One core, one call -/

/-- The recorded maximum of a core and a recorded cap between its half and it. -/
structure Capped (cpu : Int32) (original cap : UInt64) (s : Session) : Prop where
  original_eq : s.engine.originalMaxFreqKhz cpu = some original
  current_eq : s.engine.currentMaxFreqKhz cpu = some cap
  mem_Icc : cap ∈ Set.Icc (original / 2) original

theorem capCore_of_ne (k : Kernel) (readings : List ThermalZoneReading) {cpu other : Int32}
    (s : Session) (h : other ≠ cpu) :
    (s.capCore k readings cpu).engine.originalMaxFreqKhz other =
        s.engine.originalMaxFreqKhz other ∧
      (s.capCore k readings cpu).engine.currentMaxFreqKhz other =
        s.engine.currentMaxFreqKhz other := by
  unfold capCore
  split
  · exact ⟨rfl, rfl⟩
  · dsimp only
    split
    · refine ⟨rfl, ?_⟩
      dsimp only [setAndRecord]
      split
      · exact Function.update_of_ne h _ _
      · rfl
    · exact ⟨rfl, rfl⟩

/-- One turn of the policy keeps the cap or makes a step of the throttle. -/
theorem Capped.capCore_self {k : Kernel} {cpu : Int32} {original cap : UInt64} {s : Session}
    (h : Capped cpu original cap s) (readings : List ThermalZoneReading) :
    ∃ cap', Capped cpu original cap' (s.capCore k readings cpu) ∧
      Follows original (heat readings) cap cap' := by
  have hstep := thermalTarget_eq_step readings h.mem_Icc.2
  have hmem : step reduce (original / 2) original (heat readings) cap ∈
      Set.Icc (original / 2) original := step_mem_Icc reduce_le h.mem_Icc
  unfold capCore
  simp only [h.original_eq, h.current_eq, Option.getD_some, hstep]
  split
  · cases hok : (Governor.setMaxFreqKhz k cpu
        (step reduce (original / 2) original (heat readings) cap) s.world).1 with
    | true =>
        refine ⟨step reduce (original / 2) original (heat readings) cap,
          ⟨h.original_eq, ?_, hmem⟩, step_follows reduce_le h.mem_Icc.1⟩
        simp [setAndRecord, hok]
    | false =>
        refine ⟨cap, ⟨h.original_eq, ?_, h.mem_Icc⟩, Follows.refl _ _ _⟩
        simp [setAndRecord, hok, h.current_eq]
  · exact ⟨cap, ⟨h.original_eq, h.current_eq, h.mem_Icc⟩, Follows.refl _ _ _⟩

theorem Capped.capCore {k : Kernel} {cpu : Int32} {original cap : UInt64} {s : Session}
    (h : Capped cpu original cap s) (readings : List ThermalZoneReading) (other : Int32) :
    ∃ cap', Capped cpu original cap' (s.capCore k readings other) ∧
      Follows original (heat readings) cap cap' := by
  by_cases heq : cpu = other
  · subst heq
    exact h.capCore_self readings
  · obtain ⟨horiginal, hcurrent⟩ := capCore_of_ne k readings s heq
    exact ⟨cap, ⟨horiginal.trans h.original_eq, hcurrent.trans h.current_eq, h.mem_Icc⟩,
      Follows.refl _ _ _⟩

theorem Capped.evaluateThermalPolicy {k : Kernel} {cpu : Int32} {original cap : UInt64}
    {s : Session} (h : Capped cpu original cap s) (readings : List ThermalZoneReading) :
    ∃ cap', Capped cpu original cap' (s.evaluateThermalPolicy k readings) ∧
      Follows original (heat readings) cap cap' := by
  rw [Action.evaluateThermalPolicy_eq, thermalActions]
  generalize onlineIds s.engine.cores = ids
  induction ids generalizing s cap with
  | nil => exact ⟨cap, h, Follows.refl _ _ _⟩
  | cons other ids ih =>
      obtain ⟨mid, hmid, hfirst⟩ := h.capCore (k := k) readings other
      obtain ⟨cap', hcap', hrest⟩ := ih hmid
      exact ⟨cap', hcap', hfirst.trans hrest⟩

/-! ## The initial caps -/

theorem initializeCores_capped (k : Kernel) {ids : List Int32} {cpu : Int32} (hcpu : cpu ∈ ids)
    (s : Session) :
    Capped cpu (Governor.currentMaxFreqKhz s.world.files cpu)
      (Governor.currentMaxFreqKhz s.world.files cpu)
      (Action.runAll k (ids.map .initializeCore) s) := by
  induction ids using List.reverseRecOn with
  | nil => simp at hcpu
  | append_singleton ids other ih =>
      rw [List.map_append, Action.runAll_append]
      by_cases heq : cpu = other
      · -- the maximum is read after governors have been written, but no maximum has
        subst heq
        have hframe := (Action.runAll_writes k
          (ids.map Action.initializeCore ++ [.initializeCore cpu]) s).frame
          (.scalingMaxFreq cpu) (by simp [Action.targets])
        rw [Action.runAll_append] at hframe
        have hmax := Sysfs.currentMaxFreqKhz_congr (Sysfs.value_congr hframe)
        refine ⟨?_, ?_, half_le _, le_rfl⟩ <;> rw [← hmax] <;>
          exact Function.update_self _ _ _
      · have hcapped := ih (by simpa [heq] using hcpu)
        exact ⟨(Function.update_of_ne heq _ _).trans hcapped.original_eq,
          (Function.update_of_ne heq _ _).trans hcapped.current_eq, hcapped.mem_Icc⟩

theorem initializeDevice_caps (k : Kernel) (deviceName : Text) (kind : DiskKind) (s : Session) :
    (s.initializeDevice k deviceName kind).engine.originalMaxFreqKhz =
        s.engine.originalMaxFreqKhz ∧
      (s.initializeDevice k deviceName kind).engine.currentMaxFreqKhz =
        s.engine.currentMaxFreqKhz := by
  cases kind <;> exact ⟨rfl, rfl⟩

theorem applyInitialState_capped (k : Kernel) (blocks : BlockLayer) {s : Session} {cpu : Int32}
    (hcpu : cpu ∈ onlineIds s.engine.cores) :
    Capped cpu (Governor.currentMaxFreqKhz s.world.files cpu)
      (Governor.currentMaxFreqKhz s.world.files cpu) (s.applyInitialState k blocks) := by
  rw [Action.applyInitialState_eq, initialActions, Action.runAll_append]
  refine Action.runAll_invariant (fun action haction t ht ↦ ?_) (initializeCores_capped k hcpu s)
  obtain ⟨deviceName, -, rfl⟩ := List.mem_map.mp haction
  obtain ⟨horiginal, hcurrent⟩ := initializeDevice_caps k deviceName
    (IoStorage.detectKind deviceName (blocks.rotational deviceName)) t
  exact ⟨(congrFun horiginal cpu).trans ht.original_eq,
    (congrFun hcurrent cpu).trans ht.current_eq, ht.mem_Icc⟩

/-! ## Runs of the thermal policy -/

def thermalRun (k : Kernel) (blocks : BlockLayer) (history : List (List ThermalZoneReading))
    (s : Session) : Session :=
  history.foldl (fun s readings ↦ s.evaluateThermalPolicy k readings)
    (s.applyInitialState k blocks)

theorem Capped.thermalCalls {k : Kernel} {cpu : Int32} {original cap : UInt64} {s : Session}
    (h : Capped cpu original cap s) (history : List (List ThermalZoneReading)) :
    ∃ cap', Capped cpu original cap'
      (history.foldl (fun s readings ↦ s.evaluateThermalPolicy k readings) s) := by
  induction history generalizing s cap with
  | nil => exact ⟨cap, h⟩
  | cons readings history ih =>
      obtain ⟨cap', hcap', -⟩ := h.evaluateThermalPolicy (k := k) readings
      exact ih hcap'

theorem thermalRun_capped (k : Kernel) (blocks : BlockLayer)
    (history : List (List ThermalZoneReading)) {s : Session} {cpu : Int32}
    (hcpu : cpu ∈ onlineIds s.engine.cores) :
    ∃ cap, Capped cpu (Governor.currentMaxFreqKhz s.world.files cpu) cap
      (s.thermalRun k blocks history) :=
  (applyInitialState_capped k blocks hcpu).thermalCalls history

/-- The contract of the thermal policy for an online core whose original
maximum is `M`: in every reachable state the cap lies between `M / 2` and `M`
and its reduction does not wrap around; the next call lowers it only if some
reading is above the passive threshold, raises it only if every reading is at
most the recovery threshold, and then to `M`, and holds it in between. -/
theorem thermal_contract (k : Kernel) (blocks : BlockLayer) (cores : List CpuCoreInfo)
    (w : World) (history : List (List ThermalZoneReading)) (cpu : Int32)
    (hcpu : cpu ∈ onlineIds cores) :
    let M := Governor.currentMaxFreqKhz w.files cpu
    let s := thermalRun k blocks history ⟨PolicyEngine.new cores, w⟩
    ∃ cap, s.engine.originalMaxFreqKhz cpu = some M ∧
      s.engine.currentMaxFreqKhz cpu = some cap ∧
      M / 2 ≤ cap ∧ cap ≤ M ∧ (cap - cap / 20).toNat = cap.toNat - cap.toNat / 20 ∧
      ∀ readings, ∃ cap',
        (s.evaluateThermalPolicy k readings).engine.currentMaxFreqKhz cpu = some cap' ∧
        (cap' < cap → ∃ r ∈ readings, 85000 < r.tempMillidegrees) ∧
        (cap < cap' → (∀ r ∈ readings, r.tempMillidegrees ≤ 78000) ∧ cap' = M) ∧
        ((∃ r ∈ readings, 78000 < r.tempMillidegrees) →
          (∀ r ∈ readings, r.tempMillidegrees ≤ 85000) → cap' = cap) := by
  intro M s
  obtain ⟨cap, hcap⟩ : ∃ cap, Capped cpu M cap s :=
    thermalRun_capped k blocks history (s := ⟨PolicyEngine.new cores, w⟩) hcpu
  refine ⟨cap, hcap.original_eq, hcap.current_eq, hcap.mem_Icc.1, hcap.mem_Icc.2,
    toNat_reduce cap, fun readings ↦ ?_⟩
  obtain ⟨cap', hcap', hfollows⟩ := hcap.evaluateThermalPolicy (k := k) readings
  refine ⟨cap', hcap'.current_eq, ?_, ?_, ?_⟩
  · intro hlt
    exact heat_eq_hot (hfollows.hot_of_lt hcap.mem_Icc.2 hlt)
  · intro hgt
    obtain ⟨hcool, htop⟩ := hfollows.cool_of_gt hgt
    exact ⟨heat_eq_cool hcool, htop⟩
  · intro hwarm hnot
    have hheat := heat_eq_warm hwarm hnot
    rwa [hheat] at hfollows

def sampleFiles : Sysfs
  | .scalingGovernor 0 => some ['p', 'o', 'w', 'e', 'r', '\n']
  | .scalingMinFreq 0 => some (Text.decimal 800000 ++ ['\n'])
  | .scalingMaxFreq 0 => some (Text.decimal 3000000 ++ ['\n'])
  | .energyPerformancePreference 0 => some (Text.decimal 128 ++ ['\n'])
  | .swappiness => some (Text.decimal 60 ++ ['\n'])
  | .queueScheduler ['s', 'd', 'a'] => some ['[', 'b', 'f', 'q', ']', ' ', 'n', 'o', 'n', 'e', '\n']
  | _ => none

def sampleCore : CpuCoreInfo := ⟨0, 0, 0, 1024, true, false⟩

def noBlocks : BlockLayer := ⟨[], fun _ ↦ none, fun d ↦ ⟨d, 0, 0, 0, 0, 0, 0⟩⟩

theorem thermal_contract_sample :
    ∃ cap, (thermalRun Kernel.willing noBlocks [[⟨[], [], 90000⟩]]
        ⟨PolicyEngine.new [sampleCore], ⟨sampleFiles, [], []⟩⟩).engine.currentMaxFreqKhz 0 =
          some cap ∧ 1500000 ≤ cap ∧ cap ≤ 3000000 := by
  obtain ⟨cap, -, hcurrent, hfloor, htop, -⟩ := thermal_contract Kernel.willing noBlocks
    [sampleCore] ⟨sampleFiles, [], []⟩ [[⟨[], [], 90000⟩]] 0 (by decide)
  have hmax : Governor.currentMaxFreqKhz sampleFiles 0 = 3000000 := by decide
  rw [hmax] at hfloor htop
  exact ⟨cap, hcurrent, by simpa using hfloor, htop⟩

end Session
end BetterCpu
