import BetterCpu.PolicyEngine.ControlLoops
import BetterCpu.PolicyEngine.Frame

/-!
# Closed forms

What a run has made of the sysctls depends on the number of ticks under rising
pressure only, and what it has made of a cap on the number of hot ticks behind
the last cool one.  The signals of a run are those of its critical ticks.
-/

namespace BetterCpu

open Text Throttle

/-! ## Memory -/

theorem toInt_relieveDirtyRatio (ratio : Int32) :
    (relieveDirtyRatio ratio).toInt = if 5 < ratio.toInt then ratio.toInt - 5 else 5 := by
  have hiff : 5 < ratio ↔ 5 < ratio.toInt := Int32.lt_iff_toInt_lt
  unfold relieveDirtyRatio
  by_cases hgt : 5 < ratio
  · rw [if_pos hgt, if_pos (hiff.mp hgt)]
    exact Int32.toInt_sub_of_le ratio 5 (by decide) (Int32.le_of_lt hgt)
  · rw [if_neg hgt, if_neg (mt hiff.mpr hgt)]
    rfl

theorem toInt_relieveDirtyRatio_iterate (n : ℕ) (ratio : Int32) :
    (relieveDirtyRatio^[n + 1] ratio).toInt =
      if 5 * (n + 1 : ℤ) < ratio.toInt then ratio.toInt - 5 * (n + 1 : ℤ) else 5 := by
  induction n generalizing ratio with
  | zero => simpa using toInt_relieveDirtyRatio ratio
  | succ n ih =>
      rw [Function.iterate_succ_apply, ih, toInt_relieveDirtyRatio]
      push_cast
      split <;> split <;> split <;> omega

theorem iterate_add_twenty (n : ℕ) (pressure : Int32) :
    (fun pressure ↦ pressure + 20)^[n] pressure = pressure + Int32.ofNat (20 * n) := by
  induction n generalizing pressure with
  | zero => simp
  | succ n ih =>
      rw [Function.iterate_succ_apply, ih, Int32.add_assoc, Nat.mul_succ, Nat.add_comm,
        Int32.ofNat_add]
      rfl

/-- If both files are there and the kernel accepts their writes, then after a run
with `n` ticks under rising pressure the cache pressure has grown by twenty times
`n`, modulo the range of the integers, and the dirty ratio has lost five times
`n`, or is five if that is not less than it was. -/
theorem memory_run (k : Kernel) (cores : List CpuCoreInfo) (blocks : BlockLayer)
    (inputs : List TickInput) (w : World)
    (hpressure : (w.files .vfsCachePressure).isSome = true)
    (hratio : (w.files .dirtyRatio).isSome = true)
    (hkpressure : ∀ count files value, k count files .vfsCachePressure value = .accepted)
    (hkratio : ∀ count files value, k count files .dirtyRatio value = .accepted) :
    let files := (Session.run k blocks inputs ⟨PolicyEngine.new cores, w⟩).world.files
    let n := inputs.countP TickInput.isRising
    MemGuard.readVfsCachePressure files =
        MemGuard.readVfsCachePressure w.files + Int32.ofNat (20 * n) ∧
      (IoStorage.readDirtyRatio files).toInt =
        if n = 0 ∨ 5 * (n : ℤ) < (IoStorage.readDirtyRatio w.files).toInt then
          (IoStorage.readDirtyRatio w.files).toInt - 5 * n
        else 5 := by
  intro files n
  let start : Session := ⟨PolicyEngine.new cores, w⟩
  have hfiles : files = (Action.runAll k (runActions cores blocks inputs) start).world.files :=
    congrArg (fun s : Session ↦ s.world.files) (Action.run_eq k blocks inputs start)
  have hcount := countP_raisesPressure cores blocks inputs
  constructor
  · have hrun := cachePressure_runAll hkpressure (runActions cores blocks inputs) (s := start)
      hpressure
    rw [hcount, iterate_add_twenty] at hrun
    rw [hfiles]
    exact hrun
  · have hrun := dirtyRatio_runAll hkratio (runActions cores blocks inputs) (s := start) hratio
    rw [hcount] at hrun
    have hread : IoStorage.readDirtyRatio files =
        relieveDirtyRatio^[n] (IoStorage.readDirtyRatio w.files) := by
      rw [hfiles]
      exact hrun
    rw [hread]
    cases n with
    | zero => simp
    | succ n =>
        rw [toInt_relieveDirtyRatio_iterate]
        push_cast
        simp

theorem memory_run_sample :
    IoStorage.readDirtyRatio (Session.run .willing pressedTick.blocks [pressedTick, pressedTick]
      ⟨PolicyEngine.new [], ⟨ratioFiles 20, [], []⟩⟩).world.files = 10 := by
  have h := (memory_run .willing [] pressedTick.blocks [pressedTick, pressedTick]
    ⟨ratioFiles 20, [], []⟩ rfl rfl (fun _ _ _ ↦ rfl) fun _ _ _ ↦ rfl).2
  rw [← Int32.toInt_inj, h]
  decide +kernel

/-! ## Caps -/

namespace Session

/-- The hot ticks behind the last cool one. -/
def hotTicks (inputs : List TickInput) : ℕ :=
  hotSinceCool 0 (inputs.map fun input ↦ heat input.thermalZones)

theorem reduce_iterate_lt {original : UInt64} (h : 1000 ≤ original) {n : ℕ} (hn : n ≠ 0) :
    reduce^[n] original < original := by
  have hlarge : 1000 ≤ original.toNat := UInt64.le_iff_toNat_le.mp h
  calc
    reduce^[n] original ≤ reduce^[1] original :=
      reduce_mono.antitone_iterate_of_map_le (reduce_le original) (Nat.one_le_iff_ne_zero.mpr hn)
    _ < original := by
      rw [Function.iterate_one, UInt64.lt_iff_toNat_lt, toNat_reduce]
      omega

/-- If the kernel accepts the caps of a core that is listed once, its cap after a
run is a function of the number `n` of hot ticks behind the last cool one: `n`
reductions of the original maximum, but not below its half.  Nothing else of the
history counts.  From a maximum of one megahertz on, the core is unthrottled
only if `n` is zero, and throttled to the half if `n` is fourteen or more. -/
theorem cap_run (k : Kernel) (cores : List CpuCoreInfo) (blocks : BlockLayer)
    (inputs : List TickInput) (w : World) (cpu : Int32) (hcpu : (onlineIds cores).count cpu = 1)
    (hk : ∀ count files value, k count files (.scalingMaxFreq cpu) value = .accepted) :
    let s := Session.run k blocks inputs ⟨PolicyEngine.new cores, w⟩
    let M := Governor.currentMaxFreqKhz w.files cpu
    let n := hotTicks inputs
    let cap := max (reduce^[n] M) (M / 2)
    s.engine.currentMaxFreqKhz cpu = some cap ∧
      Governor.currentMaxFreqKhz s.world.files cpu = cap ∧
      (1000 ≤ M → (cap = M ↔ n = 0) ∧ (cap = M / 2 ↔ 14 ≤ n)) := by
  intro s M n cap
  let start : Session := ⟨PolicyEngine.new cores, w⟩
  have hmem : cpu ∈ onlineIds cores := List.count_pos_iff.mp (by omega)
  have hcores : (start.applyInitialState k blocks).engine.cores = cores := by
    rw [Action.applyInitialState_eq, Action.cores_runAll]
    rfl
  have hfinal := (applyInitialState_enforced k blocks (s := start) hmem).ticks hk inputs
  rw [hcores, hcpu] at hfinal
  have hcap : Run.exec (fun input : TickInput ↦ (step reduce (M / 2) M
      (heat input.thermalZones))^[1]) inputs M = cap := by
    have hsteps : Run.exec (fun input : TickInput ↦ (step reduce (M / 2) M
        (heat input.thermalZones))^[1]) inputs M =
          Run.exec (step reduce (M / 2) M) (inputs.map fun input ↦ heat input.thermalZones) M := by
      simp only [Run.exec, Function.iterate_one, List.foldl_map]
    rw [hsteps]
    exact (exec_step_eq_iterate _ 0).trans (hot_iterate reduce_mono reduce_le (half_le M) _)
  change Enforced cpu M _ s at hfinal
  rw [hcap] at hfinal
  refine ⟨hfinal.current_eq, hfinal.shown, fun hlarge ↦ ⟨⟨fun htop ↦ ?_, fun hzero ↦ ?_⟩,
    fun hhalf ↦ ?_, fun hmany ↦ ?_⟩⟩
  · by_contra hne
    have hhalf : M / 2 < M := by
      have hbig : 1000 ≤ M.toNat := UInt64.le_iff_toNat_le.mp hlarge
      rw [UInt64.lt_iff_toNat_lt, toNat_half]
      omega
    exact (max_lt (reduce_iterate_lt hlarge hne) hhalf).ne htop
  · simp only [cap, hzero, Function.iterate_zero, id_eq]
    exact max_eq_left (half_le M)
  · by_contra hfew
    exact (lt_max_of_lt_left (half_lt_reduce_iterate hlarge (by omega))).ne' hhalf
  · exact max_eq_right (reduce_iterate_le_half hlarge hmany)

theorem cap_run_sample :
    Governor.currentMaxFreqKhz (run .willing noBlocks
      [tickAt 90000, tickAt 70000, tickAt 90000, tickAt 80000]
      ⟨PolicyEngine.new [sampleCore], ⟨sampleFiles, [], []⟩⟩).world.files 0 = 2850000 := by
  rw [(cap_run .willing [sampleCore] noBlocks
    [tickAt 90000, tickAt 70000, tickAt 90000, tickAt 80000] ⟨sampleFiles, [], []⟩ 0 (by decide)
    fun _ _ _ ↦ rfl).2.1]
  decide +kernel

end Session

/-! ## Signals -/

/-- The process that a tick asks to terminate. -/
def TickInput.victim (input : TickInput) : Option Int32 :=
  if MemGuard.classify input.policyPressure = .critical then
    input.topConsumers.head?.map ProcessMemoryUsage.pid
  else none

/-- Whatever the kernel answers, a run signals the process at the front of the
consumers of each of its critical ticks, once for each of these ticks and in
their order, and no other. -/
theorem signals_run (k : Kernel) (cores : List CpuCoreInfo) (blocks : BlockLayer)
    (inputs : List TickInput) (w : World) :
    (Session.run k blocks inputs ⟨PolicyEngine.new cores, w⟩).world.signals =
      w.signals ++ inputs.filterMap TickInput.victim := by
  have htick (input : TickInput) :
      (tickActions cores input).flatMap Action.signals = input.victim.toList := by
    rw [tickActions_signals, Action.signals, TickInput.victim]
    split
    · cases input.topConsumers <;> rfl
    · rfl
  rw [Action.run_eq, Action.runAll_signals, runActions, List.flatMap_append]
  change w.signals ++ ((initialActions cores blocks).flatMap Action.signals ++
    (inputs.flatMap (tickActions cores)).flatMap Action.signals) = _
  rw [initialActions_signals, List.nil_append, List.flatMap_assoc]
  simp only [htick]
  rw [List.filterMap_eq_flatMap_toList]

end BetterCpu
