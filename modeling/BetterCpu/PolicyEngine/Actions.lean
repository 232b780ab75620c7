import BetterCpu.Library.Run
import BetterCpu.PolicyEngine

/-!
# Runs of the engine as lists of actions

The loop bodies of the initial tuning and of the policies are the actions of
the engine.  A run is the list of its actions, fixed by the cores and by what
the sensors read, and an invariant of the run is what every action preserves.
-/

namespace BetterCpu

open Text

/-! ## What a piece of the daemon may have done to the machine -/

/-- Between `w` and `w'` only attributes among `targets` were written, and
nothing else happened to the files. -/
structure World.Writes (targets : List Attr) (w w' : World) : Prop where
  isSome_eq : ∀ a, (w'.files a).isSome = (w.files a).isSome
  frame : ∀ a ∉ targets, w'.files a = w.files a
  log : ∃ events, w'.writes = w.writes ++ events ∧ ∀ e ∈ events, e.attr ∈ targets

namespace World.Writes

theorem refl (targets : List Attr) (w : World) : Writes targets w w :=
  ⟨fun _ ↦ rfl, fun _ _ ↦ rfl, [], by simp⟩

theorem trans {targets : List Attr} {u v w : World} (h₁ : Writes targets u v)
    (h₂ : Writes targets v w) : Writes targets u w := by
  obtain ⟨es₁, hlog₁, hmem₁⟩ := h₁.log
  obtain ⟨es₂, hlog₂, hmem₂⟩ := h₂.log
  refine ⟨fun a ↦ (h₂.isSome_eq a).trans (h₁.isSome_eq a),
    fun a ha ↦ (h₂.frame a ha).trans (h₁.frame a ha), es₁ ++ es₂, ?_, ?_⟩
  · rw [hlog₂, hlog₁, List.append_assoc]
  · intro e he
    rcases List.mem_append.mp he with he | he
    · exact hmem₁ e he
    · exact hmem₂ e he

theorem mono {targets more : List Attr} {w w' : World} (h : Writes targets w w')
    (hsub : targets ⊆ more) : Writes more w w' := by
  obtain ⟨events, hlog, hmem⟩ := h.log
  exact ⟨h.isSome_eq, fun a ha ↦ h.frame a fun ht ↦ ha (hsub ht), events, hlog,
    fun e he ↦ hsub (hmem e he)⟩

theorem flush (w : World) (a : Attr) (value : Text) (ans : Answer)
    (h : ans = .accepted → (w.files a).isSome = true) :
    Writes [a] w (w.flush a value ans) := by
  refine ⟨fun b ↦ ?_, fun b hb ↦ ?_, [⟨a, value, ans⟩], rfl, by simp⟩
  · by_cases hab : b = a
    · subst hab
      simp only [World.flush]
      split
      · next hacc => simp [h hacc.1]
      · rfl
    · rw [World.flush_files_of_ne _ _ hab]
  · exact World.flush_files_of_ne _ _ (by simpa using hb)

theorem isSome_of_answer {k : Kernel} {w : World} {a : Attr} {value : Text}
    (h : w.answer k a value ≠ .refusedAtOpen) : (w.files a).isSome = true := by
  by_contra habsent
  simp [World.answer, habsent] at h

theorem writeValue (k : Kernel) (a : Attr) (value : Text) (w : World) :
    Writes [a] w (w.writeValue k a value).2 :=
  flush w a value _ fun h ↦
    isSome_of_answer (show w.answer k a value ≠ .refusedAtOpen by simp [h])

theorem kill (pid : Int32) (w : World) : Writes [] w (w.kill pid) :=
  ⟨fun _ ↦ rfl, fun _ _ ↦ rfl, [], by simp [World.kill]⟩

end World.Writes

/-! ## Actions -/

inductive Action where
  | initializeCore (cpuId : Int32)
  | initializeDevice (deviceName : Text) (kind : DiskKind)
  | capCore (readings : List ThermalZoneReading) (cpuId : Int32)
  | setEpp (cpuId eppValue : Int32)
  | relieveMemory (pressure : MemoryPressure) (topConsumers : List ProcessMemoryUsage)
  | scheduleNvme (deviceName : Text) (sample : DiskStatsSample)

namespace Action

def run (k : Kernel) : Action → Session → Session
  | initializeCore cpuId => Session.initializeCore k cpuId
  | initializeDevice deviceName kind => Session.initializeDevice k deviceName kind
  | capCore readings cpuId => Session.capCore k readings cpuId
  | setEpp cpuId eppValue => Session.setEppIfChanged k cpuId eppValue
  | relieveMemory pressure topConsumers => Session.evaluateMemoryPolicy k pressure topConsumers
  | scheduleNvme deviceName sample => Session.scheduleNvme k deviceName sample

def targets : Action → List Attr
  | initializeCore cpuId => [.scalingGovernor cpuId]
  | initializeDevice deviceName .nvme => [.queueScheduler deviceName]
  | initializeDevice deviceName .hdd => [.queueScheduler deviceName]
  | initializeDevice _ _ => []
  | capCore _ cpuId => [.scalingMaxFreq cpuId]
  | setEpp cpuId _ => [.energyPerformancePreference cpuId]
  | relieveMemory pressure _ =>
      if MemGuard.classify pressure = .rising then [.vfsCachePressure, .dirtyRatio] else []
  | scheduleNvme deviceName sample =>
      if 4 < sample.ioInProgress then [.queueScheduler deviceName]
      else [.queueScheduler deviceName, .readLatNsec deviceName, .writeLatNsec deviceName]

def runAll (k : Kernel) (actions : List Action) (s : Session) : Session :=
  Run.exec (Action.run k) actions s

@[simp] theorem runAll_nil (k : Kernel) (s : Session) : runAll k [] s = s := rfl

theorem runAll_cons (k : Kernel) (action : Action) (actions : List Action) (s : Session) :
    runAll k (action :: actions) s = runAll k actions (action.run k s) := rfl

theorem runAll_append (k : Kernel) (xs ys : List Action) (s : Session) :
    runAll k (xs ++ ys) s = runAll k ys (runAll k xs s) :=
  Run.exec_append _ _ _ _

theorem runAll_invariant {k : Kernel} {actions : List Action} {P : Session → Prop}
    (hstep : ∀ action ∈ actions, ∀ s, P s → P (action.run k s)) {s : Session} (hs : P s) :
    P (runAll k actions s) :=
  Run.exec_invariant hstep hs

end Action

/-! ## The frame of an action -/

theorem setIfChanged_writes {κ ν : Type*} [DecidableEq κ] [DecidableEq ν]
    {set : κ → ν → World → Bool × World} {a : κ → Attr}
    (hset : ∀ key value w, World.Writes [a key] w (set key value w).2)
    (cache : κ → Option ν) (key : κ) (value : ν) (w : World) :
    World.Writes [a key] w (setIfChanged set cache key value w).2 := by
  unfold setIfChanged setAndRecord
  split
  · exact World.Writes.refl _ _
  · exact hset key value w

namespace Session

variable (k : Kernel)

theorem setGovernorIfChanged_writes (cpuId : Int32) (governorName : Text) (s : Session) :
    World.Writes [.scalingGovernor cpuId] s.world
      (s.setGovernorIfChanged k cpuId governorName).world :=
  setIfChanged_writes (a := Attr.scalingGovernor)
    (fun _ value w ↦ World.Writes.writeValue k _ value w) _ _ _ _

theorem setEppIfChanged_writes (cpuId eppValue : Int32) (s : Session) :
    World.Writes [.energyPerformancePreference cpuId] s.world
      (s.setEppIfChanged k cpuId eppValue).world :=
  setIfChanged_writes (a := Attr.energyPerformancePreference)
    (fun _ _ w ↦ World.Writes.writeValue k _ _ w) _ _ _ _

theorem setSchedulerIfChanged_writes (deviceName schedulerName : Text) (s : Session) :
    World.Writes [.queueScheduler deviceName] s.world
      (s.setSchedulerIfChanged k deviceName schedulerName).world :=
  setIfChanged_writes (a := Attr.queueScheduler)
    (fun _ value w ↦ World.Writes.writeValue k _ value w) _ _ _ _

theorem capCore_writes (readings : List ThermalZoneReading) (cpuId : Int32) (s : Session) :
    World.Writes [.scalingMaxFreq cpuId] s.world (s.capCore k readings cpuId).world := by
  unfold capCore
  split
  · exact World.Writes.refl _ _
  · dsimp only
    split
    · exact World.Writes.writeValue k _ _ _
    · exact World.Writes.refl _ _

theorem relieveRisingPressure_writes (s : Session) :
    World.Writes [.vfsCachePressure, .dirtyRatio] s.world
      (s.relieveRisingPressure k).world := by
  have hvfs : World.Writes [.vfsCachePressure, .dirtyRatio] s.world
      (MemGuard.setVfsCachePressure k
        (MemGuard.readVfsCachePressure s.world.files + 20) s.world).2 :=
    (World.Writes.writeValue k _ _ _).mono (by simp)
  exact hvfs.trans ((World.Writes.writeValue k .dirtyRatio _ _).mono (by simp))

@[simp] theorem engine_evaluateMemoryPolicy (pressure : MemoryPressure)
    (topConsumers : List ProcessMemoryUsage) (s : Session) :
    (s.evaluateMemoryPolicy k pressure topConsumers).engine = s.engine := by
  unfold evaluateMemoryPolicy
  split
  · rfl
  · rfl
  · split <;> rfl

theorem setNvmeLatencyTarget_writes (deviceName : Text) (readLatNs writeLatNs : UInt64)
    (w : World) :
    World.Writes [.readLatNsec deviceName, .writeLatNsec deviceName] w
      (IoStorage.setNvmeLatencyTarget k deviceName readLatNs writeLatNs w).2 := by
  unfold IoStorage.setNvmeLatencyTarget
  dsimp only
  split
  · exact World.Writes.refl _ _
  · next hopen =>
      push Not at hopen
      have hwrite := World.Writes.flush w (.writeLatNsec deviceName)
        (decimal writeLatNs.toNat)
        (w.answer k (.writeLatNsec deviceName) (decimal writeLatNs.toNat))
        fun _ ↦ World.Writes.isSome_of_answer hopen.2
      refine (hwrite.mono (by simp)).trans
        ((World.Writes.flush _ (.readLatNsec deviceName) _ _ fun _ ↦ ?_).mono (by simp))
      rw [hwrite.isSome_eq]
      exact World.Writes.isSome_of_answer hopen.1

theorem scheduleNvme_writes (deviceName : Text) (sample : DiskStatsSample) (s : Session) :
    World.Writes (Action.scheduleNvme deviceName sample).targets s.world
      (s.scheduleNvme k deviceName sample).world := by
  simp only [Action.targets, scheduleNvme]
  split
  · exact setSchedulerIfChanged_writes k _ _ _
  · exact ((setSchedulerIfChanged_writes k _ _ _).mono (by simp)).trans
      ((setNvmeLatencyTarget_writes k _ _ _ _).mono (by simp))

end Session

/-- An action writes nothing but its targets. -/
theorem Action.run_writes (k : Kernel) (action : Action) (s : Session) :
    World.Writes action.targets s.world (action.run k s).world := by
  cases action with
  | initializeCore cpuId => exact Session.setGovernorIfChanged_writes k _ _ _
  | initializeDevice deviceName kind =>
      cases kind with
      | nvme => exact Session.setSchedulerIfChanged_writes k _ _ _
      | hdd => exact Session.setSchedulerIfChanged_writes k _ _ _
      | ssdSata => exact World.Writes.refl _ _
      | unknown => exact World.Writes.refl _ _
  | capCore readings cpuId => exact Session.capCore_writes k _ _ _
  | setEpp cpuId eppValue => exact Session.setEppIfChanged_writes k _ _ _
  | relieveMemory pressure topConsumers =>
      cases hlevel : MemGuard.classify pressure with
      | healthy =>
          simpa [run, targets, Session.evaluateMemoryPolicy, hlevel] using
            World.Writes.refl _ _
      | rising =>
          simpa [run, targets, Session.evaluateMemoryPolicy, hlevel] using
            Session.relieveRisingPressure_writes k s
      | critical =>
          cases topConsumers with
          | nil =>
              simpa [run, targets, Session.evaluateMemoryPolicy, hlevel] using
                World.Writes.refl _ _
          | cons front rest =>
              simpa [run, targets, Session.evaluateMemoryPolicy, hlevel,
                MemGuard.requestGracefulTermination] using World.Writes.kill _ _
  | scheduleNvme deviceName sample => exact Session.scheduleNvme_writes k _ _ _

theorem Action.runAll_writes (k : Kernel) (actions : List Action) (s : Session) :
    World.Writes (actions.flatMap Action.targets) s.world (runAll k actions s).world := by
  induction actions generalizing s with
  | nil => exact World.Writes.refl _ _
  | cons action actions ih =>
      rw [runAll_cons, List.flatMap_cons]
      exact ((run_writes k action s).mono (by simp)).trans ((ih _).mono (by simp))

/-- What an action may write; `mayWrite_of_mem_targets` is the inversion of
`targets`. -/
inductive Action.MayWrite : Action → Attr → Prop
  | governor (cpuId : Int32) : MayWrite (initializeCore cpuId) (.scalingGovernor cpuId)
  | initialScheduler (deviceName : Text) (kind : DiskKind) :
      MayWrite (initializeDevice deviceName kind) (.queueScheduler deviceName)
  | maxFreq (readings : List ThermalZoneReading) (cpuId : Int32) :
      MayWrite (capCore readings cpuId) (.scalingMaxFreq cpuId)
  | epp (cpuId eppValue : Int32) :
      MayWrite (setEpp cpuId eppValue) (.energyPerformancePreference cpuId)
  | vfsCachePressure (pressure : MemoryPressure) (topConsumers : List ProcessMemoryUsage)
      (hrising : MemGuard.classify pressure = .rising) :
      MayWrite (relieveMemory pressure topConsumers) .vfsCachePressure
  | dirtyRatio (pressure : MemoryPressure) (topConsumers : List ProcessMemoryUsage)
      (hrising : MemGuard.classify pressure = .rising) :
      MayWrite (relieveMemory pressure topConsumers) .dirtyRatio
  | scheduler (deviceName : Text) (sample : DiskStatsSample) :
      MayWrite (scheduleNvme deviceName sample) (.queueScheduler deviceName)
  | readLatNsec (deviceName : Text) (sample : DiskStatsSample) :
      MayWrite (scheduleNvme deviceName sample) (.readLatNsec deviceName)
  | writeLatNsec (deviceName : Text) (sample : DiskStatsSample) :
      MayWrite (scheduleNvme deviceName sample) (.writeLatNsec deviceName)

theorem Action.mayWrite_of_mem_targets {action : Action} {a : Attr} (h : a ∈ action.targets) :
    action.MayWrite a := by
  cases action with
  | initializeCore cpuId =>
      obtain rfl : a = .scalingGovernor cpuId := by simpa [targets] using h
      exact .governor cpuId
  | initializeDevice deviceName kind =>
      have hmem : a ∈ [Attr.queueScheduler deviceName] := by
        cases kind with
        | nvme | hdd => exact h
        | ssdSata | unknown => exact absurd h List.not_mem_nil
      obtain rfl := List.mem_singleton.mp hmem
      exact .initialScheduler deviceName kind
  | capCore readings cpuId =>
      obtain rfl : a = .scalingMaxFreq cpuId := by simpa [targets] using h
      exact .maxFreq readings cpuId
  | setEpp cpuId eppValue =>
      obtain rfl : a = .energyPerformancePreference cpuId := by simpa [targets] using h
      exact .epp cpuId eppValue
  | relieveMemory pressure topConsumers =>
      simp only [targets] at h
      split at h
      · next hrising =>
          obtain rfl | rfl : a = .vfsCachePressure ∨ a = .dirtyRatio := by simpa using h
          · exact .vfsCachePressure pressure topConsumers hrising
          · exact .dirtyRatio pressure topConsumers hrising
      · simp at h
  | scheduleNvme deviceName sample =>
      have hcases : a = .queueScheduler deviceName ∨ a = .readLatNsec deviceName ∨
          a = .writeLatNsec deviceName := by
        simp only [targets] at h
        split at h
        · exact Or.inl (by simpa using h)
        · simpa using h
      rcases hcases with rfl | rfl | rfl
      · exact .scheduler deviceName sample
      · exact .readLatNsec deviceName sample
      · exact .writeLatNsec deviceName sample

/-! ## A run is the list of its actions -/

def initialActions (cores : List CpuCoreInfo) (blocks : BlockLayer) : List Action :=
  (onlineIds cores).map .initializeCore ++
    (IoStorage.listBlockDevices blocks.sysBlock).map fun deviceName ↦
      .initializeDevice deviceName
        (IoStorage.detectKind deviceName (blocks.rotational deviceName))

def nvmeDevices (blocks : BlockLayer) : List Text :=
  (IoStorage.listBlockDevices blocks.sysBlock).filter fun deviceName ↦
    IoStorage.detectKind deviceName (blocks.rotational deviceName) = .nvme

def thermalActions (cores : List CpuCoreInfo) (readings : List ThermalZoneReading) :
    List Action :=
  (onlineIds cores).map (.capCore readings)

def loadActions (cores : List CpuCoreInfo) (input : TickInput) : List Action :=
  if input.policyOnlineCores = 0 then []
  else
    (onlineIds cores).map fun cpuId ↦
      .setEpp cpuId (Session.targetEpp input.activityLevel
        (Session.normalizedLoad input.policyLoad input.policyOnlineCores))

def ioActions (input : TickInput) : List Action :=
  if input.activityLevel = .idle then []
  else
    (nvmeDevices input.blocks).map fun deviceName ↦
      .scheduleNvme deviceName (input.blocks.diskStats deviceName)

def tickActions (cores : List CpuCoreInfo) (input : TickInput) : List Action :=
  thermalActions cores input.thermalZones ++ (loadActions cores input ++
    (.relieveMemory input.policyPressure input.topConsumers :: ioActions input))

theorem mem_loadActions_cases {cores : List CpuCoreInfo} {input : TickInput} {action : Action}
    (h : action ∈ loadActions cores input) :
    ∃ cpuId ∈ onlineIds cores, ∃ eppValue, action = .setEpp cpuId eppValue := by
  unfold loadActions at h
  split at h
  · simp at h
  · obtain ⟨cpuId, hcpu, rfl⟩ := List.mem_map.mp h
    exact ⟨cpuId, hcpu, _, rfl⟩

theorem mem_ioActions_cases {input : TickInput} {action : Action} (h : action ∈ ioActions input) :
    ∃ deviceName ∈ nvmeDevices input.blocks,
      ∃ sample, action = .scheduleNvme deviceName sample := by
  unfold ioActions at h
  split at h
  · simp at h
  · obtain ⟨deviceName, hdevice, rfl⟩ := List.mem_map.mp h
    exact ⟨deviceName, hdevice, _, rfl⟩

/-- The actions that a tick may consist of; `tickAction_of_mem` is the inversion
of `tickActions`. -/
inductive TickAction (cores : List CpuCoreInfo) (input : TickInput) : Action → Prop
  | cap {cpuId : Int32} (hcpu : cpuId ∈ onlineIds cores) :
      TickAction cores input (.capCore input.thermalZones cpuId)
  | epp {cpuId : Int32} (hcpu : cpuId ∈ onlineIds cores) (eppValue : Int32) :
      TickAction cores input (.setEpp cpuId eppValue)
  | memory : TickAction cores input (.relieveMemory input.policyPressure input.topConsumers)
  | io {deviceName : Text} (hbusy : input.activityLevel ≠ .idle)
      (hdevice : deviceName ∈ nvmeDevices input.blocks) :
      TickAction cores input (.scheduleNvme deviceName (input.blocks.diskStats deviceName))

theorem mem_ioActions_iff {input : TickInput} {action : Action} :
    action ∈ ioActions input ↔ input.activityLevel ≠ .idle ∧
      ∃ deviceName ∈ nvmeDevices input.blocks,
        Action.scheduleNvme deviceName (input.blocks.diskStats deviceName) = action := by
  unfold ioActions
  split
  · next hidle => simp [hidle]
  · next hbusy => simp only [List.mem_map, ne_eq, hbusy, not_false_iff, true_and]

theorem tickAction_of_mem {cores : List CpuCoreInfo} {input : TickInput} {action : Action}
    (h : action ∈ tickActions cores input) : TickAction cores input action := by
  rcases List.mem_append.mp h with hthermal | hlater
  · obtain ⟨cpuId, hcpu, rfl⟩ := List.mem_map.mp hthermal
    exact .cap hcpu
  · rcases List.mem_append.mp hlater with hload | hrest
    · obtain ⟨cpuId, hcpu, eppValue, rfl⟩ := mem_loadActions_cases hload
      exact .epp hcpu eppValue
    · rcases List.mem_cons.mp hrest with rfl | hio
      · exact .memory
      · obtain ⟨hbusy, deviceName, hdevice, rfl⟩ := mem_ioActions_iff.mp hio
        exact .io hbusy hdevice

def runActions (cores : List CpuCoreInfo) (blocks : BlockLayer) (inputs : List TickInput) :
    List Action :=
  initialActions cores blocks ++ inputs.flatMap (tickActions cores)

namespace Action

@[simp] theorem cores_run (k : Kernel) (action : Action) (s : Session) :
    (action.run k s).engine.cores = s.engine.cores := by
  cases action with
  | initializeCore cpuId => rfl
  | initializeDevice deviceName kind => cases kind <;> rfl
  | capCore readings cpuId =>
      simp only [run, Session.capCore]
      split
      · rfl
      · split <;> rfl
  | setEpp cpuId eppValue => rfl
  | relieveMemory pressure topConsumers => simp only [run, Session.engine_evaluateMemoryPolicy]
  | scheduleNvme deviceName sample =>
      simp only [run, Session.scheduleNvme]
      split <;> rfl

@[simp] theorem cores_runAll (k : Kernel) (actions : List Action) (s : Session) :
    (runAll k actions s).engine.cores = s.engine.cores :=
  runAll_invariant (P := fun t ↦ t.engine.cores = s.engine.cores)
    (fun action _ t ht ↦ (cores_run k action t).trans ht) rfl

theorem foldl_cores {k : Kernel} (cores : List CpuCoreInfo) (body : Int32 → Action)
    (s : Session) :
    cores.foldl (fun s core ↦ if core.isOnline then (body core.cpuId).run k s else s) s =
      runAll k ((onlineIds cores).map body) s := by
  simp only [onlineIds, runAll, Run.exec, List.foldl_map, List.foldl_filter]

theorem applyInitialState_eq (k : Kernel) (blocks : BlockLayer) (s : Session) :
    s.applyInitialState k blocks = runAll k (initialActions s.engine.cores blocks) s := by
  rw [initialActions, runAll_append, ← foldl_cores, runAll, Run.exec, List.foldl_map]
  rfl

theorem evaluateThermalPolicy_eq (k : Kernel) (readings : List ThermalZoneReading)
    (s : Session) :
    s.evaluateThermalPolicy k readings =
      runAll k (thermalActions s.engine.cores readings) s := by
  rw [thermalActions, ← foldl_cores]
  rfl

theorem evaluateLoadPolicy_eq (k : Kernel) (input : TickInput) (s : Session) :
    s.evaluateLoadPolicy k input.activityLevel input.policyLoad input.policyOnlineCores =
      runAll k (loadActions s.engine.cores input) s := by
  unfold Session.evaluateLoadPolicy loadActions
  split
  · rfl
  · rw [← foldl_cores]
    rfl

theorem evaluateIoPolicy_eq (k : Kernel) (input : TickInput) (s : Session) :
    s.evaluateIoPolicy k input.activityLevel input.blocks = runAll k (ioActions input) s := by
  unfold Session.evaluateIoPolicy ioActions
  split
  · rfl
  · simp only [runAll, Run.exec, nvmeDevices, List.foldl_map, List.foldl_filter, run, ne_eq,
      ite_not, decide_eq_true_eq]

theorem tick_eq (k : Kernel) (input : TickInput) (s : Session) :
    s.tick k input = runAll k (tickActions s.engine.cores input) s := by
  simp only [Session.tick, evaluateThermalPolicy_eq, evaluateLoadPolicy_eq, cores_runAll,
    evaluateIoPolicy_eq, tickActions, runAll_append, runAll_cons]
  rfl

theorem ticks_eq (k : Kernel) (inputs : List TickInput) (s : Session) :
    inputs.foldl (fun s input ↦ s.tick k input) s =
      runAll k (inputs.flatMap (tickActions s.engine.cores)) s := by
  induction inputs generalizing s with
  | nil => rfl
  | cons input inputs ih =>
      rw [List.foldl_cons, ih, List.flatMap_cons, runAll_append, tick_eq, cores_runAll]

/-- `PolicyEngine::run` performs exactly the actions of the run. -/
theorem run_eq (k : Kernel) (blocks : BlockLayer) (inputs : List TickInput) (s : Session) :
    s.run k blocks inputs = runAll k (runActions s.engine.cores blocks inputs) s := by
  rw [Session.run, ticks_eq, applyInitialState_eq, cores_runAll, runActions, runAll_append]

end Action
end BetterCpu
