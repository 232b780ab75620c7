import BetterCpu.PolicyEngine.Thermal

/-!
# Two histories of readings

Two runs of the engine from one state are compared tick by tick.  When the
kernel accepts the caps, the throttle of a core makes one step in each run for
every turn of the policy, and the steps keep the order of the caps.
-/

namespace BetterCpu

open Text Throttle

/-- The same zones, none of which is cooler the second time. -/
def Hotter (readings₁ readings₂ : List ThermalZoneReading) : Prop :=
  List.Forall₂ (fun r₁ r₂ ↦ r₁.zonePath = r₂.zonePath ∧
    r₁.tempMillidegrees ≤ r₂.tempMillidegrees) readings₁ readings₂

namespace Session

theorem anyAbove_mono {readings₁ readings₂ : List ThermalZoneReading}
    (h : ∀ r₁ ∈ readings₁, ∃ r₂ ∈ readings₂, r₁.tempMillidegrees ≤ r₂.tempMillidegrees)
    (threshold : Int64) (habove : anyAbove threshold readings₁ = true) :
    anyAbove threshold readings₂ = true := by
  simp only [Session.anyAbove, List.any_eq_true, decide_eq_true_eq] at habove ⊢
  obtain ⟨r₁, hr₁, hlt⟩ := habove
  obtain ⟨r₂, hr₂, hle⟩ := h r₁ hr₁
  exact ⟨r₂, hr₂, Int64.lt_of_lt_of_le hlt hle⟩

theorem anyAbove_of_hotter {readings₁ readings₂ : List ThermalZoneReading}
    (h : Hotter readings₁ readings₂) (threshold : Int64)
    (habove : anyAbove threshold readings₁ = true) : anyAbove threshold readings₂ = true := by
  refine anyAbove_mono (fun r₁ hr₁ ↦ ?_) threshold habove
  obtain ⟨i, hi, rfl⟩ := List.mem_iff_getElem.mp hr₁
  have hlength : i < readings₂.length := h.length_eq ▸ hi
  exact ⟨readings₂[i], List.getElem_mem hlength, (h.get hi hlength).2⟩

theorem rank_heat_le_of_hotter {readings₁ readings₂ : List ThermalZoneReading}
    (h : Hotter readings₁ readings₂) : (heat readings₁).rank ≤ (heat readings₂).rank := by
  have hpassive := anyAbove_of_hotter h kThermalPassiveDefaultMillidegrees
  have hrecovery := anyAbove_of_hotter h kThermalRecoveryMillidegrees
  unfold heat
  split
  · next hhot => simp [hpassive hhot]
  · split
    · next hwarm =>
        rw [if_pos (hrecovery hwarm)]
        split <;> simp [Heat.rank]
    · simp [Heat.rank]

theorem reduce_mono : Monotone reduce := by
  intro a b hab
  rw [UInt64.le_iff_toNat_le] at hab ⊢
  rw [toNat_reduce, toNat_reduce]
  omega

/-! ## A cap that the attribute shows -/

/-- The recorded cap is what the attribute shows; a core without the attribute
has no range to move in. -/
structure Enforced (cpu : Int32) (original cap : UInt64) (s : Session) : Prop
    extends Capped cpu original cap s where
  shown : Governor.currentMaxFreqKhz s.world.files cpu = cap
  present : original ≠ 0 → (s.world.files (.scalingMaxFreq cpu)).isSome = true

variable {k : Kernel} {cpu : Int32} {original cap : UInt64} {s : Session}

theorem setMaxFreqKhz_of_accepted {w : World} (freqKhz : UInt64)
    (hk : ∀ count files value, k count files (.scalingMaxFreq cpu) value = .accepted)
    (hpresent : (w.files (.scalingMaxFreq cpu)).isSome = true) :
    (Governor.setMaxFreqKhz k cpu freqKhz w).1 = true ∧
      Governor.currentMaxFreqKhz (Governor.setMaxFreqKhz k cpu freqKhz w).2.files cpu =
        freqKhz := by
  have hanswer : w.answer k (.scalingMaxFreq cpu) (decimal freqKhz.toNat) = .accepted := by
    simp [World.answer, hpresent, hk]
  refine ⟨by simp [Governor.setMaxFreqKhz, World.writeValue, hanswer], ?_⟩
  have hfile : (Governor.setMaxFreqKhz k cpu freqKhz w).2.files (.scalingMaxFreq cpu) =
      some ((Attr.scalingMaxFreq cpu).shown (decimal freqKhz.toNat)) := by
    simp only [Governor.setMaxFreqKhz, World.writeValue, hanswer]
    exact World.flush_files_self (decimal_ne_nil _)
  rw [Sysfs.currentMaxFreqKhz_eq_iff (by simp [hfile]), Sysfs.value, hfile, Option.map_some,
    Attr.reading_shown_maxFreq]

theorem Enforced.capCore_self (h : Enforced cpu original cap s)
    (hk : ∀ count files value, k count files (.scalingMaxFreq cpu) value = .accepted)
    (readings : List ThermalZoneReading) :
    Enforced cpu original (step reduce (original / 2) original (heat readings) cap)
      (s.capCore k readings cpu) := by
  have hstep := thermalTarget_eq_step readings h.mem_Icc.2
  have hmem : step reduce (original / 2) original (heat readings) cap ∈
      Set.Icc (original / 2) original := step_mem_Icc reduce_le h.mem_Icc
  unfold Session.capCore
  simp only [h.original_eq, h.current_eq, Option.getD_some, hstep]
  split
  · next hne =>
      have hpresent : (s.world.files (.scalingMaxFreq cpu)).isSome = true := by
        apply h.present
        rintro rfl
        -- a range of one cap has no second one
        have hcap : cap = 0 := le_antisymm h.mem_Icc.2 (by simp)
        have htarget : step reduce (0 / 2) 0 (heat readings) cap = 0 :=
          le_antisymm hmem.2 (by simp)
        exact hne (htarget.trans hcap.symm)
      obtain ⟨hok, hshown⟩ := setMaxFreqKhz_of_accepted
        (step reduce (original / 2) original (heat readings) cap) hk hpresent
      refine ⟨⟨h.original_eq, by simp [setAndRecord, hok], hmem⟩, hshown, fun _ ↦ ?_⟩
      exact (World.isSome_writeValue_files k _ _ _ _).trans hpresent
  · next heq =>
      rw [not_not] at heq
      rw [heq]
      exact h

theorem Enforced.of_writes {s' : Session} (h : Enforced cpu original cap s)
    (horiginal : s'.engine.originalMaxFreqKhz cpu = s.engine.originalMaxFreqKhz cpu)
    (hcurrent : s'.engine.currentMaxFreqKhz cpu = s.engine.currentMaxFreqKhz cpu)
    {targets : List Attr} (hwrites : World.Writes targets s.world s'.world)
    (hnot : .scalingMaxFreq cpu ∉ targets) : Enforced cpu original cap s' where
  original_eq := horiginal.trans h.original_eq
  current_eq := hcurrent.trans h.current_eq
  mem_Icc := h.mem_Icc
  shown := (Sysfs.currentMaxFreqKhz_congr (Sysfs.value_congr (hwrites.frame _ hnot))).trans h.shown
  present hne := (hwrites.isSome_eq _).trans (h.present hne)

theorem Enforced.capCore_of_ne (h : Enforced cpu original cap s)
    (readings : List ThermalZoneReading) {other : Int32} (hne : cpu ≠ other) :
    Enforced cpu original cap (s.capCore k readings other) := by
  obtain ⟨horiginal, hcurrent⟩ := Session.capCore_of_ne k readings s hne
  exact h.of_writes horiginal hcurrent (capCore_writes k readings other s) (by simpa using hne)

/-! ## The rest of a tick -/

/-- The actions of a tick behind those of the thermal policy. -/
def laterActions (cores : List CpuCoreInfo) (input : TickInput) : List Action :=
  loadActions cores input ++ (.relieveMemory input.policyPressure input.topConsumers ::
    ioActions input)

/-- What the bodies of the load, memory and I/O policies preserve holds at the
end of the tick. -/
theorem laterActions_invariant {P : Session → Prop}
    (hepp : ∀ cpuId eppValue t, P t → P (t.setEppIfChanged k cpuId eppValue))
    (hmemory : ∀ pressure topConsumers t, P t → P (t.evaluateMemoryPolicy k pressure topConsumers))
    (hio : ∀ deviceName sample t, P t → P (t.scheduleNvme k deviceName sample))
    (cores : List CpuCoreInfo) (input : TickInput) (hs : P s) :
    P (Action.runAll k (laterActions cores input) s) := by
  apply Action.runAll_invariant _ hs
  intro action haction t ht
  rcases List.mem_append.mp haction with hload | hlater
  · obtain ⟨cpuId, -, eppValue, rfl⟩ := mem_loadActions_cases hload
    exact hepp cpuId eppValue t ht
  · rcases List.mem_cons.mp hlater with rfl | hlast
    · exact hmemory _ _ t ht
    · obtain ⟨deviceName, -, sample, rfl⟩ := mem_ioActions_cases hlast
      exact hio deviceName sample t ht

theorem Enforced.setEpp (h : Enforced cpu original cap s) (other epp : Int32) :
    Enforced cpu original cap (s.setEppIfChanged k other epp) :=
  h.of_writes rfl rfl (setEppIfChanged_writes k other epp s) (by simp)

theorem Enforced.relieveMemory (h : Enforced cpu original cap s) (pressure : MemoryPressure)
    (topConsumers : List ProcessMemoryUsage) :
    Enforced cpu original cap (s.evaluateMemoryPolicy k pressure topConsumers) := by
  have hwrites := Action.run_writes k (.relieveMemory pressure topConsumers) s
  refine h.of_writes (by simp) (by simp) hwrites fun hmem ↦ ?_
  cases Action.mayWrite_of_mem_targets hmem

theorem Enforced.scheduleNvme (h : Enforced cpu original cap s) (deviceName : Text)
    (sample : DiskStatsSample) :
    Enforced cpu original cap (s.scheduleNvme k deviceName sample) := by
  refine h.of_writes ?_ ?_ (scheduleNvme_writes k deviceName sample s) ?_
  · unfold Session.scheduleNvme
    split <;> rfl
  · unfold Session.scheduleNvme
    split <;> rfl
  · intro hmem
    cases Action.mayWrite_of_mem_targets hmem

theorem Enforced.laterActions (h : Enforced cpu original cap s) (cores : List CpuCoreInfo)
    (input : TickInput) :
    Enforced cpu original cap (Action.runAll k (laterActions cores input) s) :=
  laterActions_invariant (fun other eppValue _ ht ↦ ht.setEpp other eppValue)
    (fun pressure topConsumers _ ht ↦ ht.relieveMemory pressure topConsumers)
    (fun deviceName sample _ ht ↦ ht.scheduleNvme deviceName sample) cores input h

/-! ## Two runs -/

/-- Both runs enforce a cap of the core, the second one no higher a cap. -/
def Dominated (cpu : Int32) (original : UInt64) (s₁ s₂ : Session) : Prop :=
  ∃ cap₁ cap₂, Enforced cpu original cap₁ s₁ ∧ Enforced cpu original cap₂ s₂ ∧ cap₂ ≤ cap₁

theorem Dominated.capCore {s₁ s₂ : Session} (h : Dominated cpu original s₁ s₂)
    (hk : ∀ count files value, k count files (.scalingMaxFreq cpu) value = .accepted)
    {readings₁ readings₂ : List ThermalZoneReading} (hhotter : Hotter readings₁ readings₂)
    (other : Int32) :
    Dominated cpu original (s₁.capCore k readings₁ other) (s₂.capCore k readings₂ other) := by
  obtain ⟨cap₁, cap₂, h₁, h₂, hle⟩ := h
  by_cases hother : cpu = other
  · subst hother
    exact ⟨_, _, h₁.capCore_self hk readings₁, h₂.capCore_self hk readings₂,
      step_mono reduce_mono reduce_le h₁.mem_Icc h₂.mem_Icc (rank_heat_le_of_hotter hhotter) hle⟩
  · exact ⟨cap₁, cap₂, h₁.capCore_of_ne readings₁ hother, h₂.capCore_of_ne readings₂ hother, hle⟩

theorem Dominated.tick {cores : List CpuCoreInfo} {s₁ s₂ : Session}
    (h : Dominated cpu original s₁ s₂)
    (hk : ∀ count files value, k count files (.scalingMaxFreq cpu) value = .accepted)
    {input₁ input₂ : TickInput} (hhotter : Hotter input₁.thermalZones input₂.thermalZones) :
    Dominated cpu original (Action.runAll k (tickActions cores input₁) s₁)
      (Action.runAll k (tickActions cores input₂) s₂) := by
  have hthermal : Dominated cpu original
      (Action.runAll k (thermalActions cores input₁.thermalZones) s₁)
      (Action.runAll k (thermalActions cores input₂.thermalZones) s₂) := by
    unfold thermalActions
    generalize onlineIds cores = ids
    induction ids generalizing s₁ s₂ with
    | nil => exact h
    | cons other ids ih => exact ih (h.capCore hk hhotter other)
  obtain ⟨cap₁, cap₂, h₁, h₂, hle⟩ := hthermal
  have hsplit (input : TickInput) (s : Session) : Action.runAll k (tickActions cores input) s =
      Action.runAll k (Session.laterActions cores input)
        (Action.runAll k (thermalActions cores input.thermalZones) s) :=
    Action.runAll_append _ _ _ _
  rw [hsplit, hsplit]
  exact ⟨cap₁, cap₂, h₁.laterActions cores input₁, h₂.laterActions cores input₂, hle⟩

theorem Dominated.ticks {cores : List CpuCoreInfo} {s₁ s₂ : Session}
    (h : Dominated cpu original s₁ s₂)
    (hk : ∀ count files value, k count files (.scalingMaxFreq cpu) value = .accepted)
    {inputs₁ inputs₂ : List TickInput}
    (hhotter : List.Forall₂ (fun input₁ input₂ ↦
      Hotter input₁.thermalZones input₂.thermalZones) inputs₁ inputs₂) :
    Dominated cpu original (Action.runAll k (inputs₁.flatMap (tickActions cores)) s₁)
      (Action.runAll k (inputs₂.flatMap (tickActions cores)) s₂) := by
  have hexec (inputs : List TickInput) (s : Session) :
      Action.runAll k (inputs.flatMap (tickActions cores)) s =
        Run.exec (fun input ↦ Action.runAll k (tickActions cores input)) inputs s :=
    List.foldl_flatMap
  rw [hexec, hexec]
  exact Run.exec_rel (fun _ _ hinput _ _ hs ↦ hs.tick hk hinput) hhotter h

theorem applyInitialState_enforced (k : Kernel) (blocks : BlockLayer) {s : Session}
    (hcpu : cpu ∈ onlineIds s.engine.cores) :
    Enforced cpu (Governor.currentMaxFreqKhz s.world.files cpu)
      (Governor.currentMaxFreqKhz s.world.files cpu) (s.applyInitialState k blocks) := by
  have hwrites := Action.runAll_writes k (initialActions s.engine.cores blocks) s
  rw [← Action.applyInitialState_eq] at hwrites
  have hnot : .scalingMaxFreq cpu ∉
      (initialActions s.engine.cores blocks).flatMap Action.targets := by
    intro hmem
    obtain ⟨action, haction, htarget⟩ := List.mem_flatMap.mp hmem
    cases Action.mayWrite_of_mem_targets htarget
    simp [initialActions] at haction
  refine ⟨applyInitialState_capped k blocks hcpu,
    Sysfs.currentMaxFreqKhz_congr (Sysfs.value_congr (hwrites.frame _ hnot)), fun hne ↦ ?_⟩
  rw [hwrites.isSome_eq]
  by_contra habsent
  rw [Bool.not_eq_true, Option.isSome_eq_false_iff, Option.isNone_iff_eq_none] at habsent
  exact hne (by simp [Governor.currentMaxFreqKhz, habsent])

/-- Two runs of the engine on one machine whose kernel accepts the caps of the
core: if the zones are at least as hot in the second run at every tick, the cap
of the core is at most that of the first run after every tick. -/
theorem cap_antitone (k : Kernel) (blocks : BlockLayer) (cores : List CpuCoreInfo) (w : World)
    (cpu : Int32) (hcpu : cpu ∈ onlineIds cores)
    (hk : ∀ count files value, k count files (.scalingMaxFreq cpu) value = .accepted)
    (inputs₁ inputs₂ : List TickInput)
    (hhotter : List.Forall₂ (fun input₁ input₂ ↦
      Hotter input₁.thermalZones input₂.thermalZones) inputs₁ inputs₂) (n : ℕ) :
    let s₁ := Session.run k blocks (inputs₁.take n) ⟨PolicyEngine.new cores, w⟩
    let s₂ := Session.run k blocks (inputs₂.take n) ⟨PolicyEngine.new cores, w⟩
    ∃ cap₁ cap₂, s₁.engine.currentMaxFreqKhz cpu = some cap₁ ∧
      Governor.currentMaxFreqKhz s₁.world.files cpu = cap₁ ∧
      s₂.engine.currentMaxFreqKhz cpu = some cap₂ ∧
      Governor.currentMaxFreqKhz s₂.world.files cpu = cap₂ ∧ cap₂ ≤ cap₁ := by
  intro s₁ s₂
  have hinitial := applyInitialState_enforced k blocks (s := ⟨PolicyEngine.new cores, w⟩) hcpu
  have hdominated : Dominated cpu (Governor.currentMaxFreqKhz w.files cpu) s₁ s₂ := by
    simp only [s₁, s₂, Session.run, Action.ticks_eq, Action.applyInitialState_eq,
      Action.cores_runAll] at hinitial ⊢
    exact Dominated.ticks ⟨_, _, hinitial, hinitial, le_rfl⟩ hk (List.forall₂_take n hhotter)
  obtain ⟨cap₁, cap₂, h₁, h₂, hle⟩ := hdominated
  exact ⟨cap₁, cap₂, h₁.current_eq, h₁.shown, h₂.current_eq, h₂.shown, hle⟩

/-- A tick on an idle machine with one zone. -/
def tickAt (tempMillidegrees : Int64) : TickInput where
  pressure := ⟨0, 0, 0⟩
  zones := [⟨[], [], tempMillidegrees⟩]
  load := ⟨0, 0, 0⟩
  onlineCores := 1
  thermalZones := [⟨[], [], tempMillidegrees⟩]
  policyLoad := ⟨0, 0, 0⟩
  policyOnlineCores := 1
  policyPressure := ⟨0, 0, 0⟩
  topConsumers := []
  blocks := noBlocks

theorem cap_antitone_sample :
    let run (temp : Int64) := Session.run .willing noBlocks [tickAt 90000, tickAt temp]
      ⟨PolicyEngine.new [sampleCore], ⟨sampleFiles, [], []⟩⟩
    ∃ cap₁ cap₂, (run 70000).engine.currentMaxFreqKhz 0 = some cap₁ ∧
      (run 80000).engine.currentMaxFreqKhz 0 = some cap₂ ∧ cap₂ ≤ cap₁ := by
  obtain ⟨cap₁, cap₂, hcap₁, -, hcap₂, -, hle⟩ := cap_antitone .willing noBlocks [sampleCore]
    ⟨sampleFiles, [], []⟩ 0 (by decide) (fun _ _ _ ↦ rfl) [tickAt 90000, tickAt 70000]
    [tickAt 90000, tickAt 80000]
    (.cons (.cons ⟨rfl, by decide⟩ .nil) (.cons (.cons ⟨rfl, by decide⟩ .nil) .nil)) 2
  exact ⟨cap₁, cap₂, hcap₁, hcap₂, hle⟩

end Session
end BetterCpu
