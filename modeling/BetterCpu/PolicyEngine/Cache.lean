import BetterCpu.PolicyEngine.Thermal

/-!
# Coherence of the caches

The engine records a value once the setter returned true, but a setter returns
`good()` before its stream is flushed.  An action therefore keeps the four
caches coherent exactly when its cached write is not refused at close, or is of
a value that the attribute had anyway.
-/

namespace BetterCpu

open Text WriteCache

/-! ## What the four caches stand for -/

def governorHolds (cpu : Int32) (governor : Text) (w : World) : Prop :=
  Governor.currentGovernor w.files cpu = governor

def eppHolds (cpu epp : Int32) (w : World) : Prop :=
  Governor.currentEpp w.files cpu = some epp

def schedulerHolds (deviceName scheduler : Text) (w : World) : Prop :=
  IoStorage.currentScheduler w.files deviceName = scheduler

def maxFreqHolds (cpu : Int32) (freqKhz : UInt64) (w : World) : Prop :=
  Governor.currentMaxFreqKhz w.files cpu = freqKhz

/-- Every entry of the four caches is what its attribute really holds. -/
structure Session.Coherent (s : Session) : Prop where
  governors : WriteCache.Coherent governorHolds s.engine.appliedGovernors s.world
  epp : WriteCache.Coherent eppHolds s.engine.appliedEpp s.world
  schedulers : WriteCache.Coherent schedulerHolds s.engine.appliedSchedulers s.world
  maxFreqs : WriteCache.Coherent maxFreqHolds s.engine.currentMaxFreqKhz s.world

theorem governorHolds_congr {w w' : World} {cpu : Int32}
    (h : w'.files (.scalingGovernor cpu) = w.files (.scalingGovernor cpu)) (governor : Text) :
    governorHolds cpu governor w' ↔ governorHolds cpu governor w := by
  simp [governorHolds, Governor.currentGovernor, h]

theorem eppHolds_congr {w w' : World} {cpu : Int32}
    (h : w'.files (.energyPerformancePreference cpu) =
      w.files (.energyPerformancePreference cpu)) (epp : Int32) :
    eppHolds cpu epp w' ↔ eppHolds cpu epp w := by
  simp [eppHolds, Governor.currentEpp, h]

theorem schedulerHolds_congr {w w' : World} {deviceName : Text}
    (h : w'.files (.queueScheduler deviceName) = w.files (.queueScheduler deviceName))
    (scheduler : Text) :
    schedulerHolds deviceName scheduler w' ↔ schedulerHolds deviceName scheduler w := by
  simp [schedulerHolds, IoStorage.currentScheduler, h]

theorem maxFreqHolds_congr {w w' : World} {cpu : Int32}
    (h : w'.files (.scalingMaxFreq cpu) = w.files (.scalingMaxFreq cpu)) (freqKhz : UInt64) :
    maxFreqHolds cpu freqKhz w' ↔ maxFreqHolds cpu freqKhz w := by
  simp [maxFreqHolds, Governor.currentMaxFreqKhz, h]

theorem localSetter_writeValue {κ ν : Type*} (k : Kernel) (a : κ → Attr) (text : ν → Text)
    (ha : Function.Injective a) {holds : κ → ν → World → Prop}
    (hcongr : ∀ key {w w' : World}, w'.files (a key) = w.files (a key) →
      ∀ v, holds key v w' ↔ holds key v w) :
    LocalSetter (fun key value w ↦ w.writeValue k (a key) (text value)) holds where
  other _ _ w _ _ hother := hcongr _ (World.writeValue_files_of_ne k _ w (ha.ne hother)) _
  refused _ _ _ _ hok := hcongr _ (congrFun (World.writeValue_files_of_false hok) _) _

theorem setGovernor_local (k : Kernel) : LocalSetter (Governor.setGovernor k) governorHolds :=
  localSetter_writeValue k .scalingGovernor id (fun _ _ h ↦ by simpa using h)
    fun _ _ _ h ↦ governorHolds_congr h

theorem setEpp_local (k : Kernel) : LocalSetter (Governor.setEpp k) eppHolds :=
  localSetter_writeValue k .energyPerformancePreference (fun e : Int32 ↦ decimalInt e.toInt)
    (fun _ _ h ↦ by simpa using h) fun _ _ _ h ↦ eppHolds_congr h

theorem setScheduler_local (k : Kernel) : LocalSetter (IoStorage.setScheduler k) schedulerHolds :=
  localSetter_writeValue k .queueScheduler id (fun _ _ h ↦ by simpa using h)
    fun _ _ _ h ↦ schedulerHolds_congr h

theorem setMaxFreqKhz_local (k : Kernel) : LocalSetter (Governor.setMaxFreqKhz k) maxFreqHolds :=
  localSetter_writeValue k .scalingMaxFreq (fun f : UInt64 ↦ decimal f.toNat)
    (fun _ _ h ↦ by simpa using h) fun _ _ _ h ↦ maxFreqHolds_congr h

/-! ## When a setter that returned true leaves the attribute with the value -/

/-- The kernel does not refuse the write at close, unless the attribute has
the value anyway. -/
def World.Settles (k : Kernel) (w : World) (a : Attr) (value : Text) : Prop :=
  w.answer k a value = .refusedAtClose → w.files.Holds a value

theorem holds_setter_iff {k : Kernel} {a : Attr} {value : Text} {w : World}
    {holds : World → Prop} (hvalue : value ≠ [])
    (hholds : ∀ w' : World, (w'.files a).isSome = true → (holds w' ↔ w'.files.Holds a value)) :
    ((w.writeValue k a value).1 = true → holds (w.writeValue k a value).2) ↔
      w.Settles k a value := by
  constructor
  · intro h hclose
    have hok : (w.writeValue k a value).1 = true := by simp [World.writeValue, hclose]
    have hopen : w.answer k a value ≠ .refusedAtOpen := by simp [hclose]
    have hfile : (w.files a).isSome = true := World.Writes.isSome_of_answer hopen
    have hafter := (hholds _ (by rwa [World.isSome_writeValue_files])).mp (h hok)
    exact (World.holds_writeValue_iff hvalue hok).mp hafter hclose
  · intro h hok
    have hopen : w.answer k a value ≠ .refusedAtOpen := by
      simpa [World.writeValue] using hok
    have hfile : (w.files a).isSome = true := World.Writes.isSome_of_answer hopen
    exact (hholds _ (by rwa [World.isSome_writeValue_files])).mpr
      ((World.holds_writeValue_iff hvalue hok).mpr h)

theorem governorHolds_iff {w : World} {cpu : Int32} {governor : Text} (hword : IsWord governor)
    (h : (w.files (.scalingGovernor cpu)).isSome = true) :
    governorHolds cpu governor w ↔ w.files.Holds (.scalingGovernor cpu) governor := by
  rw [governorHolds, Sysfs.currentGovernor_eq_iff h, Sysfs.Holds,
    Attr.reading_shown_governor hword]

theorem eppHolds_iff {w : World} {cpu epp : Int32} :
    eppHolds cpu epp w ↔
      w.files.Holds (.energyPerformancePreference cpu) (decimalInt epp.toInt) := by
  rw [eppHolds, Sysfs.currentEpp_eq_some_iff, Sysfs.Holds, Attr.reading_shown_epp]

theorem schedulerHolds_iff {w : World} {deviceName scheduler : Text}
    (hword : Spaceless scheduler) (h : (w.files (.queueScheduler deviceName)).isSome = true) :
    schedulerHolds deviceName scheduler w ↔
      w.files.Holds (.queueScheduler deviceName) scheduler := by
  rw [schedulerHolds, Sysfs.currentScheduler_eq_iff h, Sysfs.Holds,
    Attr.reading_shown_scheduler hword]

theorem maxFreqHolds_iff {w : World} {cpu : Int32} {freqKhz : UInt64}
    (h : (w.files (.scalingMaxFreq cpu)).isSome = true) :
    maxFreqHolds cpu freqKhz w ↔
      w.files.Holds (.scalingMaxFreq cpu) (decimal freqKhz.toNat) := by
  rw [maxFreqHolds, Sysfs.currentMaxFreqKhz_eq_iff h, Sysfs.Holds, Attr.reading_shown_maxFreq]

/-! ## One action -/

/-- The write to a cached attribute that an action is about to make, if any. -/
def Action.cachedWrite : Action → Session → Option (Attr × Text)
  | initializeCore cpuId, s =>
      if s.engine.appliedGovernors cpuId = some schedutil then none
      else some (.scalingGovernor cpuId, schedutil)
  | initializeDevice deviceName .nvme, s => schedulerWrite deviceName noneScheduler s
  | initializeDevice deviceName .hdd, s => schedulerWrite deviceName mqDeadline s
  | initializeDevice _ _, _ => none
  | capCore readings cpuId, s =>
      match s.engine.originalMaxFreqKhz cpuId with
      | none => none
      | some originalMax =>
          let appliedMax := (s.engine.currentMaxFreqKhz cpuId).getD 0
          let targetMax := Session.thermalTarget readings originalMax appliedMax
          if targetMax ≠ appliedMax then
            some (.scalingMaxFreq cpuId, decimal targetMax.toNat)
          else none
  | setEpp cpuId eppValue, s =>
      if s.engine.appliedEpp cpuId = some eppValue then none
      else some (.energyPerformancePreference cpuId, decimalInt eppValue.toInt)
  | relieveMemory _ _, _ => none
  | scheduleNvme deviceName sample, s =>
      schedulerWrite deviceName (if 4 < sample.ioInProgress then mqDeadline else noneScheduler) s
where
  schedulerWrite (deviceName scheduler : Text) (s : Session) : Option (Attr × Text) :=
    if s.engine.appliedSchedulers deviceName = some scheduler then none
    else some (.queueScheduler deviceName, scheduler)

def Action.Settles (k : Kernel) (action : Action) (s : Session) : Prop :=
  ∀ a value, action.cachedWrite s = some (a, value) → s.world.Settles k a value

namespace World.Writes

variable {w w' : World} {targets : List Attr}

theorem governors_iff {cache : Int32 → Option Text} (hw : Writes targets w w')
    (hnot : ∀ cpu, .scalingGovernor cpu ∉ targets) :
    WriteCache.Coherent governorHolds cache w' ↔ WriteCache.Coherent governorHolds cache w :=
  coherent_congr fun cpu g ↦ governorHolds_congr (hw.frame _ (hnot cpu)) g

theorem epp_iff {cache : Int32 → Option Int32} (hw : Writes targets w w')
    (hnot : ∀ cpu, .energyPerformancePreference cpu ∉ targets) :
    WriteCache.Coherent eppHolds cache w' ↔ WriteCache.Coherent eppHolds cache w :=
  coherent_congr fun cpu e ↦ eppHolds_congr (hw.frame _ (hnot cpu)) e

theorem schedulers_iff {cache : Text → Option Text} (hw : Writes targets w w')
    (hnot : ∀ deviceName, .queueScheduler deviceName ∉ targets) :
    WriteCache.Coherent schedulerHolds cache w' ↔ WriteCache.Coherent schedulerHolds cache w :=
  coherent_congr fun deviceName n ↦ schedulerHolds_congr (hw.frame _ (hnot deviceName)) n

theorem maxFreqs_iff {cache : Int32 → Option UInt64} (hw : Writes targets w w')
    (hnot : ∀ cpu, .scalingMaxFreq cpu ∉ targets) :
    WriteCache.Coherent maxFreqHolds cache w' ↔ WriteCache.Coherent maxFreqHolds cache w :=
  coherent_congr fun cpu f ↦ maxFreqHolds_congr (hw.frame _ (hnot cpu)) f

theorem coherent_iff (engine : PolicyEngine) (hw : Writes targets w w')
    (hgovernor : ∀ cpu, .scalingGovernor cpu ∉ targets)
    (hepp : ∀ cpu, .energyPerformancePreference cpu ∉ targets)
    (hscheduler : ∀ deviceName, .queueScheduler deviceName ∉ targets)
    (hmax : ∀ cpu, .scalingMaxFreq cpu ∉ targets) :
    Session.Coherent ⟨engine, w'⟩ ↔ Session.Coherent ⟨engine, w⟩ :=
  ⟨fun h ↦ ⟨(hw.governors_iff hgovernor).mp h.governors, (hw.epp_iff hepp).mp h.epp,
      (hw.schedulers_iff hscheduler).mp h.schedulers, (hw.maxFreqs_iff hmax).mp h.maxFreqs⟩,
    fun h ↦ ⟨(hw.governors_iff hgovernor).mpr h.governors, (hw.epp_iff hepp).mpr h.epp,
      (hw.schedulers_iff hscheduler).mpr h.schedulers, (hw.maxFreqs_iff hmax).mpr h.maxFreqs⟩⟩

end World.Writes

namespace Session

variable {k : Kernel} {s : Session}

theorem coherent_setGovernorIfChanged (hs : s.Coherent) (cpu : Int32) (governor : Text) :
    (s.setGovernorIfChanged k cpu governor).Coherent ↔
      (s.engine.appliedGovernors cpu ≠ some governor →
        (Governor.setGovernor k cpu governor s.world).1 = true →
          governorHolds cpu governor (Governor.setGovernor k cpu governor s.world).2) := by
  have hw := setGovernorIfChanged_writes k cpu governor s
  rw [← coherent_setIfChanged_iff (setGovernor_local k) hs.governors cpu governor]
  exact ⟨fun h ↦ h.governors, fun h ↦ ⟨h, (hw.epp_iff (by simp)).mpr hs.epp,
    (hw.schedulers_iff (by simp)).mpr hs.schedulers,
    (hw.maxFreqs_iff (by simp)).mpr hs.maxFreqs⟩⟩

theorem coherent_setEppIfChanged (hs : s.Coherent) (cpu epp : Int32) :
    (s.setEppIfChanged k cpu epp).Coherent ↔
      (s.engine.appliedEpp cpu ≠ some epp →
        (Governor.setEpp k cpu epp s.world).1 = true →
          eppHolds cpu epp (Governor.setEpp k cpu epp s.world).2) := by
  have hw := setEppIfChanged_writes k cpu epp s
  rw [← coherent_setIfChanged_iff (setEpp_local k) hs.epp cpu epp]
  exact ⟨fun h ↦ h.epp, fun h ↦ ⟨(hw.governors_iff (by simp)).mpr hs.governors, h,
    (hw.schedulers_iff (by simp)).mpr hs.schedulers,
    (hw.maxFreqs_iff (by simp)).mpr hs.maxFreqs⟩⟩

theorem coherent_setSchedulerIfChanged (hs : s.Coherent) (deviceName scheduler : Text) :
    (s.setSchedulerIfChanged k deviceName scheduler).Coherent ↔
      (s.engine.appliedSchedulers deviceName ≠ some scheduler →
        (IoStorage.setScheduler k deviceName scheduler s.world).1 = true →
          schedulerHolds deviceName scheduler
            (IoStorage.setScheduler k deviceName scheduler s.world).2) := by
  have hw := setSchedulerIfChanged_writes k deviceName scheduler s
  rw [← coherent_setIfChanged_iff (setScheduler_local k) hs.schedulers deviceName scheduler]
  exact ⟨fun h ↦ h.schedulers, fun h ↦ ⟨(hw.governors_iff (by simp)).mpr hs.governors,
    (hw.epp_iff (by simp)).mpr hs.epp, h,
    (hw.maxFreqs_iff (by simp)).mpr hs.maxFreqs⟩⟩

theorem coherent_setGovernorIfChanged_iff (hs : s.Coherent) (cpu : Int32) {governor : Text}
    (hword : IsWord governor) :
    (s.setGovernorIfChanged k cpu governor).Coherent ↔
      (s.engine.appliedGovernors cpu ≠ some governor →
        s.world.Settles k (.scalingGovernor cpu) governor) := by
  rw [coherent_setGovernorIfChanged hs]
  apply imp_congr_right
  intro _
  exact holds_setter_iff (k := k) hword.1 fun _ h ↦ governorHolds_iff hword h

theorem coherent_setEppIfChanged_iff (hs : s.Coherent) (cpu epp : Int32) :
    (s.setEppIfChanged k cpu epp).Coherent ↔
      (s.engine.appliedEpp cpu ≠ some epp →
        s.world.Settles k (.energyPerformancePreference cpu) (decimalInt epp.toInt)) := by
  rw [coherent_setEppIfChanged hs]
  apply imp_congr_right
  intro _
  exact holds_setter_iff (k := k) (isWord_decimalInt _).1 fun _ _ ↦ eppHolds_iff

theorem coherent_setSchedulerIfChanged_iff (hs : s.Coherent) (deviceName : Text)
    {scheduler : Text} (hword : IsWord scheduler) :
    (s.setSchedulerIfChanged k deviceName scheduler).Coherent ↔
      (s.engine.appliedSchedulers deviceName ≠ some scheduler →
        s.world.Settles k (.queueScheduler deviceName) scheduler) := by
  rw [coherent_setSchedulerIfChanged hs]
  apply imp_congr_right
  intro _
  exact holds_setter_iff (k := k) hword.1 fun _ h ↦ schedulerHolds_iff hword.2 h

theorem Coherent.initializeCore_iff (hs : s.Coherent) (cpu : Int32) :
    (s.initializeCore k cpu).Coherent ↔
      (s.setGovernorIfChanged k cpu schedutil).Coherent := by
  have hw := setGovernorIfChanged_writes k cpu schedutil s
  have hmax := (hw.maxFreqs_iff (by simp)).mpr hs.maxFreqs
  refine ⟨fun h ↦ ⟨h.governors, h.epp, h.schedulers, hmax⟩,
    fun h ↦ ⟨h.governors, h.epp, h.schedulers, ?_⟩⟩
  intro other f hentry
  have hcurrent : (s.initializeCore k cpu).engine.currentMaxFreqKhz =
      Function.update s.engine.currentMaxFreqKhz cpu
        (some (Governor.currentMaxFreqKhz (s.initializeCore k cpu).world.files cpu)) := rfl
  rw [hcurrent] at hentry
  by_cases hother : other = cpu
  · subst hother
    rwa [Function.update_self, Option.some.injEq] at hentry
  · rw [Function.update_of_ne hother] at hentry
    exact hmax other f hentry

theorem coherent_capCore_iff (hs : s.Coherent) (readings : List ThermalZoneReading)
    (cpu : Int32) :
    (s.capCore k readings cpu).Coherent ↔ (Action.capCore readings cpu).Settles k s := by
  have hw := capCore_writes k readings cpu s
  unfold Action.Settles Action.cachedWrite
  unfold capCore at hw ⊢
  cases horiginal : s.engine.originalMaxFreqKhz cpu with
  | none => simp [hs, horiginal]
  | some original =>
      simp only [horiginal] at hw ⊢
      generalize thermalTarget readings original _ = target at hw ⊢
      split
      · next hne =>
          simp only [if_pos hne] at hw
          have hcache := coherent_setAndRecord_iff (setMaxFreqKhz_local k) hs.maxFreqs cpu target
          have hsetter : ((Governor.setMaxFreqKhz k cpu target s.world).1 = true →
              maxFreqHolds cpu target (Governor.setMaxFreqKhz k cpu target s.world).2) ↔ _ :=
            holds_setter_iff (k := k) (isWord_decimal _).1 fun _ h ↦ maxFreqHolds_iff h
          simp only [Option.some.injEq, Prod.mk.injEq, and_imp, forall_eq',
            forall_apply_eq_imp_iff]
          rw [← hsetter, ← hcache]
          exact ⟨fun h ↦ h.maxFreqs,
            fun h ↦ ⟨(hw.governors_iff (by simp)).mpr hs.governors,
              (hw.epp_iff (by simp)).mpr hs.epp,
              (hw.schedulers_iff (by simp)).mpr hs.schedulers, h⟩⟩
      · simp [hs]

end Session

theorem forall_ite_none_iff {p : Prop} [Decidable p] {a : Attr} {value : Text}
    {Q : Attr → Text → Prop} :
    (∀ a' value', (if p then none else some (a, value)) = some (a', value') → Q a' value') ↔
      (¬ p → Q a value) := by
  split
  · simp [*]
  · simp only [Option.some.injEq, Prod.mk.injEq, and_imp]
    constructor
    · intro h _
      exact h _ _ rfl rfl
    · rintro h _ _ rfl rfl
      exact h ‹_›

/-- An action keeps the caches coherent if and only if its cached write
settles. -/
theorem Action.coherent_run_iff {k : Kernel} {s : Session} (hs : s.Coherent) (action : Action) :
    (action.run k s).Coherent ↔ action.Settles k s := by
  cases action with
  | initializeCore cpuId =>
      have hiff := Session.coherent_setGovernorIfChanged_iff (k := k) hs cpuId
        (show IsWord schedutil by decide)
      rw [run, hs.initializeCore_iff, hiff]
      exact forall_ite_none_iff.symm
  | initializeDevice deviceName kind =>
      cases kind with
      | nvme | hdd =>
          exact (Session.coherent_setSchedulerIfChanged_iff hs deviceName (by decide)).trans
            forall_ite_none_iff.symm
      | ssdSata | unknown => simp [run, Session.initializeDevice, hs, Settles, cachedWrite]
  | capCore readings cpuId => exact Session.coherent_capCore_iff hs readings cpuId
  | setEpp cpuId eppValue =>
      exact (Session.coherent_setEppIfChanged_iff hs cpuId eppValue).trans
        forall_ite_none_iff.symm
  | relieveMemory pressure topConsumers =>
      have htargets : (relieveMemory pressure topConsumers).targets ⊆
          [.vfsCachePressure, .dirtyRatio] := by
        simp only [targets]
        split <;> simp
      have hw := (run_writes k (.relieveMemory pressure topConsumers) s).mono htargets
      have hengine : ((relieveMemory pressure topConsumers).run k s).engine = s.engine :=
        Session.engine_evaluateMemoryPolicy k pressure topConsumers s
      have hiff := hw.coherent_iff s.engine (by simp) (by simp) (by simp) (by simp)
      rw [← hengine] at hiff
      exact iff_of_true (hiff.mpr (hengine ▸ hs)) (by simp [Settles, cachedWrite])
  | scheduleNvme deviceName sample =>
      have hscheduler (n : Text) (hn : IsWord n) :=
        Session.coherent_setSchedulerIfChanged_iff (k := k) hs deviceName hn
      simp only [run, Session.scheduleNvme, Settles, cachedWrite, cachedWrite.schedulerWrite]
      rw [forall_ite_none_iff]
      split
      · exact hscheduler _ (by decide)
      · rw [← hscheduler _ (by decide)]
        exact (Session.setNvmeLatencyTarget_writes k deviceName _ _ _).coherent_iff _ (by simp)
          (by simp) (by simp) (by simp)

/-! ## Runs -/

namespace Session

theorem coherent_new (cores : List CpuCoreInfo) (w : World) :
    Session.Coherent ⟨PolicyEngine.new cores, w⟩ := by
  constructor <;> intro key value hentry <;> simp [PolicyEngine.new] at hentry

/-- The engine's run performs its actions one after the other, and the caches
are coherent in every state on the way if and only if every cached write
settles in the state in which it is made. -/
theorem always_coherent_iff (k : Kernel) (cores : List CpuCoreInfo) (blocks : BlockLayer)
    (inputs : List TickInput) (w : World) :
    let s : Session := ⟨PolicyEngine.new cores, w⟩
    let actions := runActions cores blocks inputs
    s.run k blocks inputs = Run.exec (Action.run k) actions s ∧
      (Run.Always (Action.run k) Coherent actions s ↔
        Run.Guarded (Action.run k) (Action.Settles k) actions s) := by
  intro s actions
  refine ⟨Action.run_eq k blocks inputs s, ?_⟩
  exact Run.always_iff_guarded (fun action t ht ↦ Action.coherent_run_iff ht action)
    (coherent_new cores w)

/-- A kernel without the governor `schedutil`. -/
def withoutSchedutil : Kernel
  | _, _, .scalingGovernor _, _ => .refusedAtClose
  | _, _, _, _ => .accepted

theorem not_coherent_withoutSchedutil :
    ¬ Run.Always (Action.run withoutSchedutil) Coherent (runActions [sampleCore] noBlocks [])
      ⟨PolicyEngine.new [sampleCore], ⟨sampleFiles, [], []⟩⟩ := by
  intro h
  have hcoherent := h.last.governors 0 schedutil rfl
  revert hcoherent
  unfold governorHolds
  decide

end Session
end BetterCpu
