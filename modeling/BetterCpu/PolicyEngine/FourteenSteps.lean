import BetterCpu.Library.Decay
import BetterCpu.PolicyEngine.Recovery

/-!
# How long throttling takes

While the zones stay hot and the kernel accepts the caps, every tick takes one
twentieth off the cap, rounded down, until half of the original maximum is
reached.  Thirteen such steps leave more than a half, and fourteen leave less,
unless the maximum is so small that the rounding counts.
-/

namespace BetterCpu

open Throttle Decay

namespace Session

variable {k : Kernel} {cpu : Int32} {original cap : UInt64} {s : Session}
  {readings : List ThermalZoneReading}

/-! ## The cap after some steps -/

theorem toNat_reduce_iterate (n : ℕ) (cap : UInt64) :
    (reduce^[n] cap).toNat = (decay 19)^[n] cap.toNat := by
  induction n with
  | zero => rfl
  | succ n ih =>
      rw [Function.iterate_succ_apply', Function.iterate_succ_apply', toNat_reduce, ih]
      rfl

theorem toNat_half (original : UInt64) : (original / 2).toNat = original.toNat / 2 := by
  rw [UInt64.toNat_div]
  rfl

theorem half_lt_reduce_iterate (h : 1000 ≤ original) {n : ℕ} (hn : n ≤ 13) :
    original / 2 < reduce^[n] original := by
  have hlarge : 1000 ≤ original.toNat := UInt64.le_iff_toNat_le.mp h
  have hthirteen : 19 ^ 13 * original.toNat ≤ 20 ^ 13 * (reduce^[13] original).toNat := by
    rw [toNat_reduce_iterate]
    exact pow_mul_le_iterate 19 13 _
  calc
    original / 2 < reduce^[13] original := by
      rw [UInt64.lt_iff_toNat_lt, toNat_half]
      omega
    _ ≤ reduce^[n] original := reduce_mono.antitone_iterate_of_map_le (reduce_le original) hn

/-- Here the rounding enters, which keeps small maxima above their half. -/
theorem reduce_iterate_le_half (h : 1000 ≤ original) {n : ℕ} (hn : 14 ≤ n) :
    reduce^[n] original ≤ original / 2 := by
  have hlarge : 1000 ≤ original.toNat := UInt64.le_iff_toNat_le.mp h
  have hfourteen : 20 ^ 14 * (reduce^[14] original).toNat + 19 * 19 ^ 14 ≤
      19 ^ 14 * original.toNat + 19 * 20 ^ 14 := by
    rw [toNat_reduce_iterate]
    exact iterate_add_le 19 14 _
  calc
    reduce^[n] original ≤ reduce^[14] original :=
      reduce_mono.antitone_iterate_of_map_le (reduce_le original) hn
    _ ≤ original / 2 := by
      rw [UInt64.le_iff_toNat_le, toNat_half]
      omega

example : 479 / 2 < (decay 19)^[14] 479 := by decide

/-! ## Hot ticks -/

/-- A core that is listed several times makes as many steps. -/
theorem Enforced.thermalActions (h : Enforced cpu original cap s)
    (hk : ∀ count files value, k count files (.scalingMaxFreq cpu) value = .accepted)
    (readings : List ThermalZoneReading) (cores : List CpuCoreInfo) :
    Enforced cpu original
      ((step reduce (original / 2) original (heat readings))^[(onlineIds cores).count cpu] cap)
      (Action.runAll k (thermalActions cores readings) s) := by
  unfold BetterCpu.thermalActions
  generalize onlineIds cores = ids
  induction ids generalizing s cap with
  | nil => exact h
  | cons other ids ih =>
      by_cases heq : cpu = other
      · subst heq
        rw [List.count_cons_self, Function.iterate_succ_apply]
        exact ih (h.capCore_self hk readings)
      · rw [List.count_cons_of_ne (Ne.symm heq)]
        exact ih (h.capCore_of_ne readings heq)

theorem Enforced.tick (h : Enforced cpu original cap s)
    (hk : ∀ count files value, k count files (.scalingMaxFreq cpu) value = .accepted)
    (hcpu : (onlineIds s.engine.cores).count cpu = 1) (input : TickInput) :
    Enforced cpu original (step reduce (original / 2) original (heat input.thermalZones) cap)
      (s.tick k input) := by
  have hthermal := h.thermalActions hk input.thermalZones s.engine.cores
  rw [hcpu, Function.iterate_one] at hthermal
  have hlater := hthermal.laterActions (k := k) s.engine.cores input
  rw [← Action.runAll_append] at hlater
  rw [Action.tick_eq]
  exact hlater

theorem Enforced.hotTicks (h : Enforced cpu original cap s)
    (hk : ∀ count files value, k count files (.scalingMaxFreq cpu) value = .accepted)
    (hcpu : (onlineIds s.engine.cores).count cpu = 1) {inputs : List TickInput}
    (hhot : ∀ input ∈ inputs, heat input.thermalZones = .hot) :
    Enforced cpu original
      ((step reduce (original / 2) original .hot)^[inputs.length] cap)
      (inputs.foldl (fun s input ↦ s.tick k input) s) := by
  induction inputs generalizing s cap with
  | nil => exact h
  | cons input inputs ih =>
      have hfirst := h.tick hk hcpu input
      rw [hhot input List.mem_cons_self] at hfirst
      refine ih hfirst ?_ fun later hlater ↦ hhot later (List.mem_cons_of_mem _ hlater)
      simpa only [Action.tick_eq, Action.cores_runAll] using hcpu

/-- Throttling reaches its floor in exactly fourteen steps: from a cap at an
original maximum of at least one megahertz, with all writes of caps accepted,
`inputs.length` ticks above the passive threshold leave a cap above the half of
the maximum up to the thirteenth, and the half from the fourteenth on. -/
theorem cap_after_hot_ticks (k : Kernel) (cpu : Int32) (original : UInt64)
    (horiginal : 1000 ≤ original) (s : Session) (hs : Enforced cpu original original s)
    (hk : ∀ count files value, k count files (.scalingMaxFreq cpu) value = .accepted)
    (hcpu : (onlineIds s.engine.cores).count cpu = 1) (inputs : List TickInput)
    (hhot : ∀ input ∈ inputs, ∃ reading ∈ input.thermalZones,
      kThermalPassiveDefaultMillidegrees < reading.tempMillidegrees) :
    let s' := inputs.foldl (fun s input ↦ s.tick k input) s
    ∃ cap, s'.engine.currentMaxFreqKhz cpu = some cap ∧
      Governor.currentMaxFreqKhz s'.world.files cpu = cap ∧
      (inputs.length ≤ 13 → original / 2 < cap) ∧
      (14 ≤ inputs.length → cap = original / 2) := by
  intro s'
  have hheat : ∀ input ∈ inputs, heat input.thermalZones = .hot := by
    intro input hinput
    have habove : anyAbove kThermalPassiveDefaultMillidegrees input.thermalZones = true := by
      simpa [anyAbove] using hhot input hinput
    simp [heat, habove]
  have hfinal := hs.hotTicks hk hcpu hheat
  rw [hot_iterate reduce_mono reduce_le (half_le original)] at hfinal
  refine ⟨_, hfinal.current_eq, hfinal.shown, fun hle ↦ ?_, fun hge ↦ ?_⟩
  · exact lt_of_lt_of_le (half_lt_reduce_iterate horiginal hle) (le_max_left _ _)
  · exact max_eq_right (reduce_iterate_le_half horiginal hge)

theorem cap_after_hot_ticks_sample :
    let s := applyInitialState .willing noBlocks
      ⟨PolicyEngine.new [sampleCore], ⟨sampleFiles, [], []⟩⟩
    ∃ cap, ((List.replicate 14 (tickAt 90000)).foldl (fun s input ↦ s.tick .willing input)
        s).engine.currentMaxFreqKhz 0 = some cap ∧ cap = 1500000 := by
  have hmax : Governor.currentMaxFreqKhz sampleFiles 0 = 3000000 := by decide
  have hcpu : (0 : Int32) ∈ onlineIds [sampleCore] := by decide
  have hinitial := applyInitialState_enforced .willing noBlocks
    (s := ⟨PolicyEngine.new [sampleCore], ⟨sampleFiles, [], []⟩⟩) hcpu
  rw [hmax] at hinitial
  obtain ⟨cap, hcap, -, -, hhalf⟩ := cap_after_hot_ticks .willing 0 3000000 (by decide) _ hinitial
    (fun _ _ _ ↦ rfl) (by rw [Action.applyInitialState_eq, Action.cores_runAll]; decide)
    (List.replicate 14 (tickAt 90000)) (fun input hinput ↦ by
      obtain rfl := List.eq_of_mem_replicate hinput
      exact ⟨_, List.mem_cons_self, by decide⟩)
  exact ⟨cap, hcap, hhalf (by simp)⟩

end Session
end BetterCpu
