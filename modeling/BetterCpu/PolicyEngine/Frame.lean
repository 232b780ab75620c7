import BetterCpu.PolicyEngine.Actions

/-!
# The frame of a run

What the initial tuning and each tick may write and signal, whatever the
sensors read and the kernel answers.  The writes are the targets of the
actions; the signals are listed here in the same way.
-/

namespace BetterCpu

open Text

/-- What `apply_initial_state` may write on a machine with these cores. -/
def InitialFrame (cores : List CpuCoreInfo) : Attr → Prop
  | .scalingGovernor cpuId => cpuId ∈ onlineIds cores
  | .queueScheduler _ => True
  | _ => False

/-- What a tick with this input may write: of a core, the cap and the
preference; the sysctls under rising pressure only; of a device, what belongs
to the NVMe devices of the tick. -/
def TickFrame (cores : List CpuCoreInfo) (input : TickInput) : Attr → Prop
  | .scalingGovernor _ => False
  | .scalingMinFreq _ => False
  | .scalingMaxFreq cpuId => cpuId ∈ onlineIds cores
  | .energyPerformancePreference cpuId => cpuId ∈ onlineIds cores
  | .swappiness => False
  | .vfsCachePressure => MemGuard.classify input.policyPressure = .rising
  | .dirtyRatio => MemGuard.classify input.policyPressure = .rising
  | .dirtyBackgroundRatio => False
  | .queueScheduler deviceName => IsNvme deviceName
  | .readLatNsec deviceName => IsNvme deviceName
  | .writeLatNsec deviceName => IsNvme deviceName
where
  IsNvme (deviceName : Text) : Prop :=
    IoStorage.detectKind deviceName (input.blocks.rotational deviceName) = .nvme

/-- The writes between two states of the machine, refused ones included, are to
attributes of the frame. -/
def World.WritesOnly (frame : Attr → Prop) (w w' : World) : Prop :=
  ∃ events, w'.writes = w.writes ++ events ∧ ∀ e ∈ events, frame e.attr

/-! ## The targets of the actions are within the frames -/

theorem initialActions_targets {cores : List CpuCoreInfo} {blocks : BlockLayer} {a : Attr}
    (ha : a ∈ (initialActions cores blocks).flatMap Action.targets) : InitialFrame cores a := by
  obtain ⟨action, haction, htarget⟩ := List.mem_flatMap.mp ha
  have hwrite := Action.mayWrite_of_mem_targets htarget
  rcases List.mem_append.mp haction with hcore | hdevice
  · obtain ⟨cpuId, hcpu, rfl⟩ := List.mem_map.mp hcore
    cases hwrite with
    | governor => exact hcpu
  · obtain ⟨deviceName, -, rfl⟩ := List.mem_map.mp hdevice
    cases hwrite with
    | initialScheduler => trivial

theorem tickActions_targets {cores : List CpuCoreInfo} {input : TickInput} {a : Attr}
    (ha : a ∈ (tickActions cores input).flatMap Action.targets) : TickFrame cores input a := by
  obtain ⟨action, haction, htarget⟩ := List.mem_flatMap.mp ha
  have hwrite := Action.mayWrite_of_mem_targets htarget
  cases tickAction_of_mem haction with
  | cap hcpu =>
      cases hwrite with
      | maxFreq => exact hcpu
  | epp hcpu _ =>
      cases hwrite with
      | epp => exact hcpu
  | memory =>
      cases hwrite with
      | vfsCachePressure _ _ hrising => exact hrising
      | dirtyRatio _ _ hrising => exact hrising
  | @io deviceName _ hdevice =>
      have hnvme : TickFrame.IsNvme input deviceName := by
        simpa [TickFrame.IsNvme] using (List.mem_filter.mp hdevice).2
      cases hwrite with
      | scheduler | readLatNsec | writeLatNsec => exact hnvme

theorem Action.runAll_writesOnly {k : Kernel} {actions : List Action} {frame : Attr → Prop}
    (h : ∀ a ∈ actions.flatMap Action.targets, frame a) (s : Session) :
    World.WritesOnly frame s.world (runAll k actions s).world := by
  obtain ⟨events, hlog, hmem⟩ := (runAll_writes k actions s).log
  exact ⟨events, hlog, fun e he ↦ h e.attr (hmem e he)⟩

/-! ## The signals of the actions -/

def Action.signals : Action → List Int32
  | relieveMemory pressure topConsumers =>
      if MemGuard.classify pressure = .critical then
        topConsumers.head?.toList.map ProcessMemoryUsage.pid
      else []
  | _ => []

theorem setIfChanged_signals {κ ν : Type*} [DecidableEq κ] [DecidableEq ν]
    {set : κ → ν → World → Bool × World}
    (hset : ∀ key value w, (set key value w).2.signals = w.signals)
    (cache : κ → Option ν) (key : κ) (value : ν) (w : World) :
    (setIfChanged set cache key value w).2.signals = w.signals := by
  unfold setIfChanged setAndRecord
  split
  · rfl
  · exact hset key value w

theorem setNvmeLatencyTarget_signals (k : Kernel) (deviceName : Text)
    (readLatNs writeLatNs : UInt64) (w : World) :
    (IoStorage.setNvmeLatencyTarget k deviceName readLatNs writeLatNs w).2.signals =
      w.signals := by
  unfold IoStorage.setNvmeLatencyTarget
  dsimp only
  split <;> rfl

theorem evaluateMemoryPolicy_signals (k : Kernel) (pressure : MemoryPressure)
    (topConsumers : List ProcessMemoryUsage) (s : Session) :
    (s.evaluateMemoryPolicy k pressure topConsumers).world.signals =
      s.world.signals ++ (Action.relieveMemory pressure topConsumers).signals := by
  cases hlevel : MemGuard.classify pressure with
  | healthy => simp [Session.evaluateMemoryPolicy, Action.signals, hlevel]
  | rising =>
      simp only [Session.evaluateMemoryPolicy, Action.signals, hlevel, reduceCtorEq, if_false,
        List.append_nil]
      rfl
  | critical =>
      cases topConsumers with
      | nil => simp [Session.evaluateMemoryPolicy, Action.signals, hlevel]
      | cons front rest =>
          simp [Session.evaluateMemoryPolicy, Action.signals, hlevel,
            MemGuard.requestGracefulTermination, World.kill]

theorem Action.run_signals (k : Kernel) (action : Action) (s : Session) :
    (action.run k s).world.signals = s.world.signals ++ action.signals := by
  cases action with
  | initializeCore cpuId =>
      simp only [signals, List.append_nil]
      exact setIfChanged_signals (fun _ _ _ ↦ rfl) _ _ _ _
  | initializeDevice deviceName kind =>
      simp only [signals, List.append_nil]
      cases kind with
      | nvme => exact setIfChanged_signals (fun _ _ _ ↦ rfl) _ _ _ _
      | hdd => exact setIfChanged_signals (fun _ _ _ ↦ rfl) _ _ _ _
      | ssdSata => rfl
      | unknown => rfl
  | capCore readings cpuId =>
      simp only [signals, List.append_nil, run, Session.capCore]
      split
      · rfl
      · split <;> rfl
  | setEpp cpuId eppValue =>
      simp only [signals, List.append_nil]
      exact setIfChanged_signals (fun _ _ _ ↦ rfl) _ _ _ _
  | relieveMemory pressure topConsumers => exact evaluateMemoryPolicy_signals k _ _ s
  | scheduleNvme deviceName sample =>
      simp only [signals, List.append_nil, run, Session.scheduleNvme]
      split
      · exact setIfChanged_signals (fun _ _ _ ↦ rfl) _ _ _ _
      · refine (setNvmeLatencyTarget_signals k deviceName _ _ _).trans ?_
        exact setIfChanged_signals (fun _ _ _ ↦ rfl) _ _ _ _

theorem Action.runAll_signals (k : Kernel) (actions : List Action) (s : Session) :
    (runAll k actions s).world.signals = s.world.signals ++ actions.flatMap signals := by
  induction actions generalizing s with
  | nil => simp
  | cons action actions ih =>
      rw [runAll_cons, ih, run_signals, List.append_assoc, List.flatMap_cons]

theorem initialActions_signals (cores : List CpuCoreInfo) (blocks : BlockLayer) :
    (initialActions cores blocks).flatMap Action.signals = [] := by
  simp [initialActions, Action.signals]

theorem tickActions_signals (cores : List CpuCoreInfo) (input : TickInput) :
    (tickActions cores input).flatMap Action.signals =
      (Action.relieveMemory input.policyPressure input.topConsumers).signals := by
  have hload : (loadActions cores input).flatMap Action.signals = [] := by
    rw [List.flatMap_eq_nil_iff]
    intro action haction
    obtain ⟨cpuId, -, eppValue, rfl⟩ := mem_loadActions_cases haction
    rfl
  have hio : (ioActions input).flatMap Action.signals = [] := by
    rw [List.flatMap_eq_nil_iff]
    intro action haction
    obtain ⟨deviceName, -, sample, rfl⟩ := mem_ioActions_cases haction
    rfl
  have hthermal : (thermalActions cores input.thermalZones).flatMap Action.signals = [] := by
    simp [thermalActions, Action.signals]
  rw [tickActions, List.flatMap_append, List.flatMap_append, List.flatMap_cons, hload, hio,
    hthermal]
  simp

/-! ## The run -/

/-- The frame of a run: what `apply_initial_state` writes, and what the next
tick writes and signals after any number of ticks.  A core is named by its id,
so that one that was offline at construction is in neither frame. -/
theorem run_frame (k : Kernel) (blocks : BlockLayer) (cores : List CpuCoreInfo)
    (inputs : List TickInput) (w : World) :
    let start : Session := ⟨PolicyEngine.new cores, w⟩
    let initial := start.applyInitialState k blocks
    let s := start.run k blocks inputs
    World.WritesOnly (InitialFrame cores) w initial.world ∧ initial.world.signals = w.signals ∧
      ∀ input, World.WritesOnly (TickFrame cores input) s.world (s.tick k input).world ∧
        ∃ pids, (s.tick k input).world.signals = s.world.signals ++ pids ∧ pids.length ≤ 1 ∧
          (pids ≠ [] → MemGuard.classify input.policyPressure = .critical) := by
  intro start initial s
  have hcores : s.engine.cores = cores := by
    rw [show s = _ from Action.run_eq k blocks inputs start, Action.cores_runAll]
    rfl
  refine ⟨?_, ?_, fun input ↦ ⟨?_, ?_⟩⟩
  · rw [show initial = _ from Action.applyInitialState_eq k blocks start]
    exact Action.runAll_writesOnly (fun a ha ↦ initialActions_targets ha) start
  · rw [show initial = _ from Action.applyInitialState_eq k blocks start, Action.runAll_signals,
      initialActions_signals, List.append_nil]
  · rw [Action.tick_eq, hcores]
    exact Action.runAll_writesOnly (fun a ha ↦ tickActions_targets ha) s
  · rw [Action.tick_eq, hcores, Action.runAll_signals, tickActions_signals]
    refine ⟨_, rfl, ?_, ?_⟩
    · simp only [Action.signals]
      split
      · cases input.topConsumers <;> simp
      · simp
    · intro hsignalled
      by_contra hlevel
      exact hsignalled (by simp [Action.signals, hlevel])

end BetterCpu
