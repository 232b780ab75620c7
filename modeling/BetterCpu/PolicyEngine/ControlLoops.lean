import BetterCpu.Library.ControlLoop
import BetterCpu.PolicyEngine.CachePressure
import BetterCpu.PolicyEngine.FourteenSteps
import BetterCpu.PolicyEngine.Requests

/-!
# The control loops of the engine

If the kernel accepts the writes to an attribute, the engine moves its value by
a control loop: the new value is a function of the old one and of what the
sensors read.  The caches, the recorded caps and the other attributes have no
part in it, so a run is a product of independent loops.
-/

namespace BetterCpu

open Text Throttle

/-! ## The loops -/

def Reading.mapNumber (f : UInt64 → UInt64) : Reading → Reading
  | .number value => .number (f value)
  | r => r

def Reading.mapInteger (f : Int32 → Int32) : Reading → Reading
  | .integer value => .integer (f value)
  | r => r

def relieveDirtyRatio (ratio : Int32) : Int32 :=
  if 5 < ratio then ratio - 5 else 5

/-- The tick sets the latency targets of the device. -/
def TickInput.setsLatency (deviceName : Text) (input : TickInput) : Bool :=
  input.activityLevel ≠ .idle && (nvmeDevices input.blocks).contains deviceName &&
    (input.blocks.diskStats deviceName).ioInProgress ≤ 4

/-- The loop of each attribute, on a machine that shows `start` when the engine
starts.  A core that is listed several times is capped as often. -/
def Attr.loop (cores : List CpuCoreInfo) (blocks : BlockLayer) (start : Sysfs) :
    Attr → ControlLoop TickInput Reading
  | .scalingGovernor cpuId =>
      ⟨fun r ↦ if (onlineIds cores).contains cpuId then .word schedutil else r, fun _ ↦ id⟩
  | .scalingMaxFreq cpuId =>
      let original := Governor.currentMaxFreqKhz start cpuId
      ⟨id, fun input ↦ Reading.mapNumber
        (step Session.reduce (original / 2) original
          (Session.heat input.thermalZones))^[(onlineIds cores).count cpuId]⟩
  | .energyPerformancePreference cpuId =>
      ⟨id, fun input r ↦
        if input.policyOnlineCores ≠ 0 ∧ (onlineIds cores).contains cpuId then
          .integer (Session.targetEpp input.activityLevel
            (Session.normalizedLoad input.policyLoad input.policyOnlineCores))
        else r⟩
  | .vfsCachePressure =>
      ControlLoop.counting TickInput.isRising (Reading.mapInteger fun pressure ↦ pressure + 20)
  | .dirtyRatio =>
      ControlLoop.counting TickInput.isRising (Reading.mapInteger relieveDirtyRatio)
  | .queueScheduler deviceName =>
      ⟨fun r ↦
        if (IoStorage.listBlockDevices blocks.sysBlock).contains deviceName then
          (initialScheduler (IoStorage.detectKind deviceName
            (blocks.rotational deviceName))).elim r .word
        else r,
      fun input r ↦
        if input.activityLevel ≠ .idle ∧ (nvmeDevices input.blocks).contains deviceName then
          .word (nvmeScheduler (input.blocks.diskStats deviceName).ioInProgress)
        else r⟩
  | .readLatNsec deviceName =>
      ⟨id, fun input r ↦
        if input.setsLatency deviceName ∧ (start (.writeLatNsec deviceName)).isSome then
          .number kNvmeDefaultReadLatencyNs
        else r⟩
  | .writeLatNsec deviceName =>
      ⟨id, fun input r ↦
        if input.setsLatency deviceName ∧ (start (.readLatNsec deviceName)).isSome then
          .number kNvmeDefaultWriteLatencyNs
        else r⟩
  | .scalingMinFreq _ | .swappiness | .dirtyBackgroundRatio => .still

/-- The attributes whose files are opened together with that of the attribute. -/
def Attr.openedWith : Attr → List Attr
  | .readLatNsec deviceName | .writeLatNsec deviceName =>
      [.readLatNsec deviceName, .writeLatNsec deviceName]
  | a => [a]

variable {k : Kernel} {cores : List CpuCoreInfo} {blocks : BlockLayer} {a : Attr}

/-! ## The attributes behind a cache -/

theorem Action.request_ne_nil {action : Action} {value : Text}
    (h : action.request a = some value) : value ≠ [] := by
  cases action with
  | initializeCore cpuId =>
      obtain ⟨-, rfl⟩ := by simpa [request] using h
      decide
  | initializeDevice deviceName kind =>
      cases kind <;> simp only [request, initialScheduler, Option.ite_none_right_eq_some,
        Option.some.injEq, reduceCtorEq, and_false] at h
      · obtain ⟨-, rfl⟩ := h
        decide
      · obtain ⟨-, rfl⟩ := h
        decide
  | setEpp cpuId eppValue =>
      obtain ⟨-, rfl⟩ := by simpa [request] using h
      exact (isWord_decimalInt _).1
  | scheduleNvme deviceName sample =>
      obtain ⟨-, rfl⟩ := by simpa [request] using h
      exact (isWord_nvmeScheduler _).1
  | _ => cases h

/-- The file is there, and shows what the cache has. -/
structure Session.Recorded (a : Attr) (s : Session) : Prop where
  present : (s.world.files a).isSome = true
  holds : ∀ value, s.cached a = some value → s.world.files.Holds a value

/-- An accepted request is what the attribute has then. -/
theorem Served.value_eq {s s' : Session} {request : Option Text} (h : Served k a s s' request)
    (hk : ∀ count files value, k count files a value = .accepted)
    (hvalues : ∀ value, request = some value → value ≠ []) (hs : s.Recorded a) :
    s'.Recorded a ∧ s'.world.files.value a =
      (s.world.files.value a).map fun r ↦ request.elim r fun value ↦ a.reading (a.shown value) := by
  have hsame (hu : Untouched a s s') :
      s'.Recorded a ∧ s'.world.files.value a = s.world.files.value a := by
    have hvalue := Sysfs.value_congr hu.files
    refine ⟨⟨by rw [hu.files]; exact hs.present, fun value hcached ↦ ?_⟩, hvalue⟩
    rw [Sysfs.Holds, hvalue]
    exact hs.holds value (hu.cached.symm.trans hcached)
  obtain ⟨text, htext⟩ := Option.isSome_iff_exists.mp hs.present
  have hread : s.world.files.value a = some (a.reading text) := by rw [Sysfs.value, htext]; rfl
  cases h with
  | unasked hu =>
      refine ⟨(hsame hu).1, (hsame hu).2.trans ?_⟩
      exact Option.map_id'.symm
  | dropped hcached hu =>
      refine ⟨(hsame hu).1, (hsame hu).2.trans ?_⟩
      rw [hs.holds _ hcached]
      rfl
  | passed hcached hnext hlog hfile =>
      next value =>
      have haccepted : s.world.answer k a value = .accepted := by
        rw [World.answer, if_pos hs.present]
        exact hk _ _ _
      have hshown : s'.world.files a = some (a.shown value) := by
        rw [hfile, World.writeValue, haccepted]
        exact World.flush_files_self (hvalues value rfl)
      have hvalue : s'.world.files.value a = some (a.reading (a.shown value)) := by
        rw [Sysfs.value, hshown]
        rfl
      refine ⟨⟨by rw [hshown]; rfl, fun other hother ↦ ?_⟩, hvalue.trans (by rw [hread]; rfl)⟩
      rw [hnext, haccepted] at hother
      obtain rfl : value = other := by simpa using hother
      exact hvalue

theorem loop_initial_of_isCached (ha : a.IsCached) (start : Sysfs) (r : Reading) :
    (a.loop cores blocks start).initial r =
      (initialRequest cores blocks a).elim r fun value ↦ a.reading (a.shown value) := by
  cases a with
  | scalingGovernor cpuId =>
      simp only [Attr.loop, initialRequest]
      split
      · rw [Option.elim_some, Attr.reading_shown_governor (by decide)]
      · rfl
  | energyPerformancePreference cpuId => rfl
  | queueScheduler deviceName =>
      simp only [Attr.loop, initialRequest]
      split
      · generalize IoStorage.detectKind deviceName (blocks.rotational deviceName) = kind
        cases kind with
        | nvme | hdd =>
            exact (Attr.reading_shown_scheduler (by decide)).symm
        | ssdSata | unknown => rfl
      · rfl
  | _ => exact ha.elim

theorem loop_next_of_isCached (ha : a.IsCached) (start : Sysfs) (input : TickInput)
    (r : Reading) :
    (a.loop cores blocks start).next input r =
      (input.request cores a).elim r fun value ↦ a.reading (a.shown value) := by
  cases a with
  | scalingGovernor cpuId => rfl
  | energyPerformancePreference cpuId =>
      simp only [Attr.loop, TickInput.request]
      split
      · rw [Option.elim_some, Attr.reading_shown_epp]
      · rfl
  | queueScheduler deviceName =>
      simp only [Attr.loop, TickInput.request]
      split
      · rw [Option.elim_some, Attr.reading_shown_scheduler (isWord_nvmeScheduler _).2]
      · rfl
  | _ => exact ha.elim

theorem value_runAll_of_isCached (ha : a.IsCached)
    (hk : ∀ count files value, k count files a value = .accepted) (inputs : List TickInput)
    {w : World} (hpresent : (w.files a).isSome = true) :
    (Action.runAll k (runActions cores blocks inputs)
        ⟨PolicyEngine.new cores, w⟩).world.files.value a =
      (w.files.value a).map ((a.loop cores blocks w.files).after inputs) := by
  have hstart : Session.Recorded a ⟨PolicyEngine.new cores, w⟩ :=
    ⟨hpresent, fun value hcached ↦ by cases a <;> cases hcached⟩
  have hview := Run.exec_view (Action.run k) (I := Session.Recorded a)
    (G := fun _ _ ↦ True) (fun s ↦ s.world.files.value a)
    (fun action ↦ Option.map fun r ↦
      (action.request a).elim r fun value ↦ a.reading (a.shown value))
    (fun action s hs _ ↦ (Action.served k ha action s).value_eq hk
      (fun _ ↦ Action.request_ne_nil) hs)
    hstart (Run.guarded_of_forall (fun _ _ ↦ trivial) (runActions cores blocks inputs) _)
  rw [Run.exec_map] at hview
  refine hview.trans (congrArg (fun f ↦ Option.map f (w.files.value a)) (funext fun r ↦ ?_))
  rw [ControlLoop.after_of_requests (loop_initial_of_isCached ha w.files)
    (loop_next_of_isCached ha w.files)]
  exact exec_runActions (fun value _ ↦ a.reading (a.shown value)) (fun _ _ ↦ rfl) inputs r

/-! ## The caps -/

namespace Session

variable {cpu : Int32} {original cap : UInt64} {s : Session}

theorem Enforced.tick_of_count (h : Enforced cpu original cap s)
    (hk : ∀ count files value, k count files (.scalingMaxFreq cpu) value = .accepted)
    (input : TickInput) :
    Enforced cpu original ((step reduce (original / 2) original
      (heat input.thermalZones))^[(onlineIds s.engine.cores).count cpu] cap) (s.tick k input) := by
  have hthermal := h.thermalActions hk input.thermalZones s.engine.cores
  have hlater := hthermal.laterActions (k := k) s.engine.cores input
  rw [← Action.runAll_append] at hlater
  rw [Action.tick_eq]
  exact hlater

theorem Enforced.ticks (h : Enforced cpu original cap s)
    (hk : ∀ count files value, k count files (.scalingMaxFreq cpu) value = .accepted)
    (inputs : List TickInput) :
    Enforced cpu original
      (Run.exec (fun input : TickInput ↦ (step reduce (original / 2) original
        (heat input.thermalZones))^[(onlineIds s.engine.cores).count cpu]) inputs cap)
      (inputs.foldl (fun s input ↦ s.tick k input) s) := by
  induction inputs generalizing s cap with
  | nil => exact h
  | cons input inputs ih =>
      have hrest := ih (h.tick_of_count hk input)
      have hcores : (s.tick k input).engine.cores = s.engine.cores := by
        rw [Action.tick_eq, Action.cores_runAll]
      rw [hcores] at hrest
      exact hrest

end Session

theorem exec_mapNumber {ι : Type*} (f : ι → UInt64 → UInt64) (inputs : List ι)
    (value : UInt64) :
    Run.exec (fun input ↦ Reading.mapNumber (f input)) inputs (.number value) =
      .number (Run.exec f inputs value) := by
  induction inputs generalizing value with
  | nil => rfl
  | cons input inputs ih => exact ih (f input value)

theorem value_run_maxFreq (cpuId : Int32)
    (hk : ∀ count files value, k count files (.scalingMaxFreq cpuId) value = .accepted)
    (inputs : List TickInput) {w : World}
    (hpresent : (w.files (.scalingMaxFreq cpuId)).isSome = true) :
    (Session.run k blocks inputs ⟨PolicyEngine.new cores, w⟩).world.files.value
        (.scalingMaxFreq cpuId) =
      (w.files.value (.scalingMaxFreq cpuId)).map
        ((Attr.loop cores blocks w.files (.scalingMaxFreq cpuId)).after inputs) := by
  let start : Session := ⟨PolicyEngine.new cores, w⟩
  have hwrites := Action.runAll_writes k (runActions cores blocks inputs) start
  have hrun := Action.run_eq k blocks inputs start
  have hvalue : w.files.value (.scalingMaxFreq cpuId) =
      some (.number (Governor.currentMaxFreqKhz w.files cpuId)) :=
    (Sysfs.currentMaxFreqKhz_eq_iff hpresent).mp rfl
  rw [hvalue, Option.map_some, ControlLoop.after]
  simp only [Attr.loop, id_eq]
  rw [exec_mapNumber]
  by_cases hcpu : cpuId ∈ onlineIds cores
  · have hinitial := Session.applyInitialState_enforced k blocks (s := start) hcpu
    have hcores : (start.applyInitialState k blocks).engine.cores = cores := by
      rw [Action.applyInitialState_eq, Action.cores_runAll]
      rfl
    have hfinal := hinitial.ticks hk inputs
    rw [hcores] at hfinal
    refine (Sysfs.currentMaxFreqKhz_eq_iff ?_).mp hfinal.shown
    change ((start.run k blocks inputs).world.files (.scalingMaxFreq cpuId)).isSome = true
    rw [hrun]
    exact (hwrites.isSome_eq _).trans hpresent
  · have hzero : (onlineIds cores).count cpuId = 0 := List.count_eq_zero.mpr hcpu
    have hnot : .scalingMaxFreq cpuId ∉
        (runActions cores blocks inputs).flatMap Action.targets := by
      intro hmem
      obtain ⟨action, haction, htarget⟩ := List.mem_flatMap.mp hmem
      cases Action.mayWrite_of_mem_targets htarget
      rcases List.mem_append.mp haction with hfirst | hticks
      · simp [initialActions] at hfirst
      · obtain ⟨input, -, hinput⟩ := List.mem_flatMap.mp hticks
        cases tickAction_of_mem hinput with
        | cap honline => exact hcpu honline
    have hsame : (start.run k blocks inputs).world.files.value (.scalingMaxFreq cpuId) =
        w.files.value (.scalingMaxFreq cpuId) := by
      rw [hrun]
      exact Sysfs.value_congr (hwrites.frame _ hnot)
    have hstill : ∀ value : UInt64, Run.exec (fun _ : TickInput ↦ id) inputs value = value :=
      fun value ↦ ControlLoop.after_still inputs value
    refine hsame.trans (hvalue.trans ?_)
    simp only [hzero, Function.iterate_zero, hstill]

/-! ## The sysctls -/

theorem iterate_mapInteger (f : Int32 → Int32) (n : ℕ) (value : Int32) :
    (Reading.mapInteger f)^[n] (.integer value) = .integer (f^[n] value) := by
  induction n generalizing value with
  | zero => rfl
  | succ n ih => exact ih (f value)

theorem value_eq_integer {files : Sysfs} {a : Attr} (default : Int32)
    (hreading : ∀ t, a.reading t = .integer (readInt default (some t)))
    (hpresent : (files a).isSome = true) :
    files.value a = some (.integer (readInt default (files a))) := by
  obtain ⟨t, ht⟩ := Option.isSome_iff_exists.mp hpresent
  rw [Sysfs.value, ht, Option.map_some, hreading]

theorem cachePressure_runAll
    (hk : ∀ count files value, k count files .vfsCachePressure value = .accepted)
    (actions : List Action) {s : Session}
    (hpresent : (s.world.files .vfsCachePressure).isSome = true) :
    (Action.runAll k actions s).cachePressure =
      (fun pressure ↦ pressure + 20)^[actions.countP Action.raisesPressure] s.cachePressure := by
  have hview := Run.exec_view (Action.run k)
    (I := fun s ↦ (s.world.files .vfsCachePressure).isSome = true) (G := fun _ _ ↦ True)
    Session.cachePressure
    (fun action pressure ↦ if action.raisesPressure then pressure + 20 else pressure)
    (fun action s hs _ ↦ ⟨((Action.run_writes k action s).isSome_eq _).trans hs, ?_⟩)
    hpresent (Run.guarded_of_forall (fun _ _ ↦ trivial) actions s)
  · exact hview.trans (Run.exec_counting _ _ _ _)
  · cases hraises : action.raisesPressure with
    | false => exact cachePressure_run_of_not_raises hraises k s
    | true =>
        rw [cachePressure_run_of_raises hraises, World.answer, if_pos hs, hk]
        rfl

theorem dirtyRatio_runAll (hk : ∀ count files value, k count files .dirtyRatio value = .accepted)
    (actions : List Action) {s : Session} (hpresent : (s.world.files .dirtyRatio).isSome = true) :
    (Action.runAll k actions s).dirtyRatio =
      relieveDirtyRatio^[actions.countP Action.raisesPressure] s.dirtyRatio := by
  have hview := Run.exec_view (Action.run k)
    (I := fun s ↦ (s.world.files .dirtyRatio).isSome = true) (G := fun _ _ ↦ True)
    Session.dirtyRatio
    (fun action ratio ↦ if action.raisesPressure then relieveDirtyRatio ratio else ratio)
    (fun action s hs _ ↦ ⟨((Action.run_writes k action s).isSome_eq _).trans hs, ?_⟩)
    hpresent (Run.guarded_of_forall (fun _ _ ↦ trivial) actions s)
  · exact hview.trans (Run.exec_counting _ _ _ _)
  · have hsets := sets_iff_raisesPressure hk hs action
    cases hraises : action.raisesPressure with
    | false => exact dirtyRatio_run_of_not_sets (by simp [hsets, hraises])
    | true => exact dirtyRatio_run_of_sets (hsets.mpr hraises)

/-! ## The latency targets -/

/-- The action sets the latency targets of the device, if both files open. -/
def Action.setsLatency (deviceName : Text) : Action → Bool
  | scheduleNvme name sample => name = deviceName && sample.ioInProgress ≤ 4
  | _ => false

theorem setsLatency_of_mem_tickActions {input : TickInput} {action : Action} {deviceName : Text}
    (h : action ∈ tickActions cores input) (hsets : action.setsLatency deviceName = true) :
    input.setsLatency deviceName = true := by
  cases tickAction_of_mem h with
  | @io name hbusy hname =>
      simp only [Action.setsLatency, Bool.and_eq_true, decide_eq_true_eq] at hsets
      obtain ⟨rfl, hcount⟩ := hsets
      simp [TickInput.setsLatency, hbusy, hname, hcount]
  | _ => cases hsets

variable (cores) in
theorem exists_tickActions_of_setsLatency {input : TickInput} {deviceName : Text}
    (h : input.setsLatency deviceName = true) :
    ∃ action ∈ tickActions cores input, action.setsLatency deviceName = true := by
  simp only [TickInput.setsLatency, Bool.and_eq_true, decide_eq_true_eq,
    List.contains_iff_mem] at h
  obtain ⟨⟨hbusy, hname⟩, hcount⟩ := h
  refine ⟨.scheduleNvme deviceName (input.blocks.diskStats deviceName), ?_, ?_⟩
  · apply List.mem_append_right
    apply List.mem_append_right
    exact List.mem_cons_of_mem _ (mem_ioActions_iff.mpr ⟨hbusy, deviceName, hname, rfl⟩)
  · simp [Action.setsLatency, hcount]

section Latency

variable {deviceName : Text}

theorem files_setNvmeLatencyTarget (readLatNs writeLatNs : UInt64)
    (hread : ∀ count files value, k count files (.readLatNsec deviceName) value = .accepted)
    (hwrite : ∀ count files value, k count files (.writeLatNsec deviceName) value = .accepted)
    (w : World) :
    (IoStorage.setNvmeLatencyTarget k deviceName readLatNs writeLatNs w).2.files =
      if (w.files (.readLatNsec deviceName)).isSome ∧ (w.files (.writeLatNsec deviceName)).isSome
      then Function.update
        (Function.update w.files (.writeLatNsec deviceName)
          (some (decimal writeLatNs.toNat ++ ['\n'])))
        (.readLatNsec deviceName) (some (decimal readLatNs.toNat ++ ['\n']))
      else w.files := by
  by_cases hreads : (w.files (.readLatNsec deviceName)).isSome = true
  · by_cases hwrites : (w.files (.writeLatNsec deviceName)).isSome = true
    · simp [IoStorage.setNvmeLatencyTarget, World.answer, hreads, hwrites, hread, hwrite,
        World.flush, decimal_ne_nil, Attr.shown]
    · simp [IoStorage.setNvmeLatencyTarget, World.answer, hwrites]
  · simp [IoStorage.setNvmeLatencyTarget, World.answer, hreads]

theorem notMem_targets_of_not_setsLatency {action : Action}
    (h : action.setsLatency deviceName = false) :
    .readLatNsec deviceName ∉ action.targets ∧ .writeLatNsec deviceName ∉ action.targets := by
  have hnot {a : Attr} (hmem : a ∈ action.targets)
      (ha : a = .readLatNsec deviceName ∨ a = .writeLatNsec deviceName) : False := by
    have hwrite := Action.mayWrite_of_mem_targets hmem
    obtain ⟨sample, rfl⟩ : ∃ sample, action = .scheduleNvme deviceName sample := by
      rcases ha with rfl | rfl
      · cases hwrite with
        | readLatNsec _ sample => exact ⟨sample, rfl⟩
      · cases hwrite with
        | writeLatNsec _ sample => exact ⟨sample, rfl⟩
    have hbusy : 4 < sample.ioInProgress := by
      simpa [Action.setsLatency, UInt64.not_le] using h
    rw [Action.targets, if_pos hbusy] at hmem
    rcases ha with rfl | rfl <;> simp at hmem
  exact ⟨fun hmem ↦ hnot hmem (Or.inl rfl), fun hmem ↦ hnot hmem (Or.inr rfl)⟩

/-- The latency attributes follow their loops: an action that sets the targets
does so if both files are there. -/
theorem value_run_setsLatency {action : Action} (h : action.setsLatency deviceName = true)
    (hread : ∀ count files value, k count files (.readLatNsec deviceName) value = .accepted)
    (hwrite : ∀ count files value, k count files (.writeLatNsec deviceName) value = .accepted)
    (s : Session) :
    let files := (action.run k s).world.files
    let both := (s.world.files (.readLatNsec deviceName)).isSome ∧
      (s.world.files (.writeLatNsec deviceName)).isSome
    files.value (.readLatNsec deviceName) =
        (if both then some (.number kNvmeDefaultReadLatencyNs)
          else s.world.files.value (.readLatNsec deviceName)) ∧
      files.value (.writeLatNsec deviceName) =
        if both then some (.number kNvmeDefaultWriteLatencyNs)
        else s.world.files.value (.writeLatNsec deviceName) := by
  intro files both
  cases action with
  | scheduleNvme name sample =>
      simp only [Action.setsLatency, Bool.and_eq_true, decide_eq_true_eq] at h
      obtain ⟨rfl, hcount⟩ := h
      let t := s.setSchedulerIfChanged k name noneScheduler
      have hframe := (Session.setSchedulerIfChanged_writes k name noneScheduler s).frame
      have htread : t.world.files (.readLatNsec name) = s.world.files (.readLatNsec name) :=
        hframe _ (by simp)
      have htwrite : t.world.files (.writeLatNsec name) = s.world.files (.writeLatNsec name) :=
        hframe _ (by simp)
      have hfiles : files = (IoStorage.setNvmeLatencyTarget k name kNvmeDefaultReadLatencyNs
          kNvmeDefaultWriteLatencyNs t.world).2.files := by
        simp only [files, Action.run, Session.scheduleNvme, if_neg (UInt64.not_lt.mpr hcount), t]
      rw [files_setNvmeLatencyTarget _ _ hread hwrite, htread, htwrite] at hfiles
      by_cases hboth : both
      · rw [if_pos hboth] at hfiles
        rw [if_pos hboth, if_pos hboth, hfiles]
        constructor
        · simp [Sysfs.value, Attr.reading, IStream.uint64_line]
        · simp [Sysfs.value, Attr.reading, IStream.uint64_line]
      · rw [if_neg hboth] at hfiles
        rw [if_neg hboth, if_neg hboth, hfiles]
        exact ⟨Sysfs.value_congr htread, Sysfs.value_congr htwrite⟩
  | _ => cases h

/-- The request of a tick, or of an action, for the target of an attribute; the
file that is opened together with it has to be there as well. -/
def asksLatency (partnerPresent sets : Bool) : Option Unit :=
  if sets && partnerPresent then some () else none

theorem asksLatency_eq_some_iff {partnerPresent sets : Bool} {u : Unit} :
    asksLatency partnerPresent sets = some u ↔ sets = true ∧ partnerPresent = true := by
  simp [asksLatency]

variable {partner : Attr} {target : UInt64}

variable (cores blocks) in
theorem exec_runActions_latency {loop : ControlLoop TickInput Reading} (partnerPresent : Bool)
    (hinitial : ∀ r, loop.initial r = r)
    (hnext : ∀ input r, loop.next input r =
      (asksLatency partnerPresent (input.setsLatency deviceName)).elim r fun _ ↦ .number target)
    (inputs : List TickInput) (r : Reading) :
    Run.exec (fun (action : Action) r ↦
        (asksLatency partnerPresent (action.setsLatency deviceName)).elim r fun _ ↦ .number target)
      (runActions cores blocks inputs) r = loop.after inputs r := by
  have hloop : loop.after inputs r =
      Run.exec (fun (_ : Unit) _ ↦ Reading.number target)
        ((none : Option Unit).toList ++
          inputs.filterMap fun input ↦ asksLatency partnerPresent (input.setsLatency deviceName))
        r :=
    ControlLoop.after_of_requests hinitial hnext inputs r
  rw [hloop]
  refine exec_runActions_asking (fun _ _ ↦ Reading.number target) (fun _ _ ↦ rfl)
    (fun action haction u hu ↦ ?_) (fun u hu ↦ by cases hu) (fun input action haction u hu ↦ ?_)
    (fun input u hu ↦ ?_) inputs r
  · have hsets := (asksLatency_eq_some_iff.mp hu).1
    rcases List.mem_append.mp haction with hcore | hdevice
    · obtain ⟨cpuId, -, rfl⟩ := List.mem_map.mp hcore
      cases hsets
    · obtain ⟨name, -, rfl⟩ := List.mem_map.mp hdevice
      cases hsets
  · obtain ⟨hsets, hpartner⟩ := asksLatency_eq_some_iff.mp hu
    exact asksLatency_eq_some_iff.mpr ⟨setsLatency_of_mem_tickActions haction hsets, hpartner⟩
  · obtain ⟨hsets, hpartner⟩ := asksLatency_eq_some_iff.mp hu
    obtain ⟨action, haction, hsets⟩ := exists_tickActions_of_setsLatency cores hsets
    exact ⟨action, haction, asksLatency_eq_some_iff.mpr ⟨hsets, hpartner⟩⟩

theorem value_run_latency {action : Action} {s : Session}
    (hsets : action.setsLatency deviceName = true → (action.run k s).world.files.value a =
      if (s.world.files a).isSome ∧ (s.world.files partner).isSome then some (.number target)
      else s.world.files.value a)
    (hframe : action.setsLatency deviceName = false →
      (action.run k s).world.files.value a = s.world.files.value a)
    (hpresent : (s.world.files a).isSome = true) :
    (action.run k s).world.files.value a =
      (s.world.files.value a).map fun r ↦ (asksLatency (s.world.files partner).isSome
        (action.setsLatency deviceName)).elim r fun _ ↦ .number target := by
  obtain ⟨text, htext⟩ := Option.isSome_iff_exists.mp hpresent
  have hvalue : s.world.files.value a = some (a.reading text) := by
    rw [Sysfs.value, htext]
    rfl
  cases haction : action.setsLatency deviceName with
  | false =>
      rw [hframe haction, hvalue]
      rfl
  | true =>
      rw [hsets haction, hpresent, hvalue]
      cases (s.world.files partner).isSome with
      | true => rfl
      | false => rfl

theorem value_runAll_latency {w : World}
    (hsets : ∀ (action : Action) (s : Session), action.setsLatency deviceName = true →
      (action.run k s).world.files.value a =
        if (s.world.files a).isSome ∧ (s.world.files partner).isSome then some (.number target)
        else s.world.files.value a)
    (hframe : ∀ (action : Action) (s : Session), action.setsLatency deviceName = false →
      (action.run k s).world.files.value a = s.world.files.value a)
    (hinitial : ∀ r, (a.loop cores blocks w.files).initial r = r)
    (hnext : ∀ input r, (a.loop cores blocks w.files).next input r =
      if input.setsLatency deviceName ∧ (w.files partner).isSome then .number target else r)
    (inputs : List TickInput) (hpresent : (w.files a).isSome = true) :
    (Action.runAll k (runActions cores blocks inputs)
        ⟨PolicyEngine.new cores, w⟩).world.files.value a =
      (w.files.value a).map ((a.loop cores blocks w.files).after inputs) := by
  let partnerPresent := (w.files partner).isSome
  have hasks (input : TickInput) (r : Reading) : (a.loop cores blocks w.files).next input r =
      (asksLatency (w.files partner).isSome (input.setsLatency deviceName)).elim r
        fun _ ↦ .number target := by
    rw [hnext]
    cases input.setsLatency deviceName with
    | false => rfl
    | true => cases (w.files partner).isSome with
      | true => rfl
      | false => rfl
  have hactions := exec_runActions_latency cores blocks partnerPresent hinitial hasks inputs
  have hview := Run.exec_view (Action.run k)
    (I := fun s ↦ (s.world.files a).isSome = true ∧
      (s.world.files partner).isSome = partnerPresent)
    (G := fun _ _ ↦ True) (fun s ↦ s.world.files.value a)
    (fun action ↦ Option.map fun r ↦ (asksLatency partnerPresent
      (action.setsLatency deviceName)).elim r fun _ ↦ .number target)
    (fun action s hs _ ↦ ⟨?_, ?_⟩)
    (s := ⟨PolicyEngine.new cores, w⟩) ⟨hpresent, rfl⟩
    (Run.guarded_of_forall (fun _ _ ↦ trivial) (runActions cores blocks inputs) _)
  · rw [Run.exec_map] at hview
    exact hview.trans (congrArg (fun f ↦ Option.map f (w.files.value a)) (funext hactions))
  · have hwrites := Action.run_writes k action s
    exact ⟨(hwrites.isSome_eq a).trans hs.1, (hwrites.isSome_eq partner).trans hs.2⟩
  · rw [← hs.2]
    exact value_run_latency (hsets action s) (hframe action s) hs.1

end Latency

/-! ## The run -/

theorem value_runAll_sysctl (default : Int32) (f : Int32 → Int32) (inputs : List TickInput)
    {w : World} (hpresent : (w.files a).isSome = true)
    (hreading : ∀ t, a.reading t = .integer (readInt default (some t)))
    (hloop : a.loop cores blocks w.files =
      ControlLoop.counting TickInput.isRising (Reading.mapInteger f))
    (hrunAll : readInt default ((Action.runAll k (runActions cores blocks inputs)
        ⟨PolicyEngine.new cores, w⟩).world.files a) =
      f^[(runActions cores blocks inputs).countP Action.raisesPressure]
        (readInt default (w.files a))) :
    (Action.runAll k (runActions cores blocks inputs)
        ⟨PolicyEngine.new cores, w⟩).world.files.value a =
      (w.files.value a).map ((a.loop cores blocks w.files).after inputs) := by
  have hwrites := Action.runAll_writes k (runActions cores blocks inputs)
    ⟨PolicyEngine.new cores, w⟩
  rw [value_eq_integer default hreading hpresent, Option.map_some, hloop,
    ControlLoop.after_counting, iterate_mapInteger, ← countP_raisesPressure cores blocks, ← hrunAll]
  exact value_eq_integer default hreading ((hwrites.isSome_eq a).trans hpresent)

theorem value_runAll_still {w : World} (inputs : List TickInput)
    (hnot : ∀ action : Action, a ∉ action.targets)
    (hloop : a.loop cores blocks w.files = .still) :
    (Action.runAll k (runActions cores blocks inputs)
        ⟨PolicyEngine.new cores, w⟩).world.files.value a =
      (w.files.value a).map ((a.loop cores blocks w.files).after inputs) := by
  have hframe := (Action.runAll_writes k (runActions cores blocks inputs)
    ⟨PolicyEngine.new cores, w⟩).frame a (by simpa using fun action _ ↦ hnot action)
  have hstill : (ControlLoop.still : ControlLoop TickInput Reading).after inputs = id :=
    funext fun r ↦ ControlLoop.after_still inputs r
  rw [hloop, hstill, Option.map_id]
  exact Sysfs.value_congr hframe

theorem value_runAll_of_present {w : World} (inputs : List TickInput)
    (hk : ∀ b ∈ a.openedWith, ∀ count files value, k count files b value = .accepted)
    (hpresent : (w.files a).isSome = true) :
    (Action.runAll k (runActions cores blocks inputs)
        ⟨PolicyEngine.new cores, w⟩).world.files.value a =
      (w.files.value a).map ((a.loop cores blocks w.files).after inputs) := by
  by_cases hcached : a.IsCached
  · have hself : a ∈ a.openedWith := by
      cases a <;> simp [Attr.openedWith]
    exact value_runAll_of_isCached hcached (hk a hself) inputs hpresent
  · cases a with
    | scalingMaxFreq cpuId =>
        have hvalue : (Session.run k blocks inputs ⟨PolicyEngine.new cores, w⟩).world.files.value
            (.scalingMaxFreq cpuId) = _ :=
          value_run_maxFreq cpuId (hk _ List.mem_cons_self) inputs hpresent
        rwa [Action.run_eq] at hvalue
    | vfsCachePressure =>
        exact value_runAll_sysctl 100 (fun pressure ↦ pressure + 20) inputs hpresent
          (fun _ ↦ rfl) rfl (cachePressure_runAll (hk _ List.mem_cons_self) _ hpresent)
    | dirtyRatio =>
        exact value_runAll_sysctl 0 relieveDirtyRatio inputs hpresent
          (fun _ ↦ rfl) rfl (dirtyRatio_runAll (hk _ List.mem_cons_self) _ hpresent)
    | readLatNsec deviceName =>
        have hread := hk (.readLatNsec deviceName) (by simp [Attr.openedWith])
        have hwrite := hk (.writeLatNsec deviceName) (by simp [Attr.openedWith])
        refine value_runAll_latency (fun action s h ↦ (value_run_setsLatency h hread hwrite s).1)
          (fun action s h ↦ ?_) (fun _ ↦ rfl) (fun _ _ ↦ rfl) inputs hpresent
        exact Sysfs.value_congr ((Action.run_writes k action s).frame _
          (notMem_targets_of_not_setsLatency h).1)
    | writeLatNsec deviceName =>
        have hread := hk (.readLatNsec deviceName) (by simp [Attr.openedWith])
        have hwrite := hk (.writeLatNsec deviceName) (by simp [Attr.openedWith])
        have hsets (action : Action) (s : Session) (h : action.setsLatency deviceName = true) :
            (action.run k s).world.files.value (.writeLatNsec deviceName) =
              if (s.world.files (.writeLatNsec deviceName)).isSome ∧
                (s.world.files (.readLatNsec deviceName)).isSome
              then some (.number kNvmeDefaultWriteLatencyNs)
              else s.world.files.value (.writeLatNsec deviceName) := by
          simpa only [and_comm] using (value_run_setsLatency h hread hwrite s).2
        refine value_runAll_latency hsets
          (fun action s h ↦ ?_) (fun _ ↦ rfl) (fun _ _ ↦ rfl) inputs hpresent
        exact Sysfs.value_congr ((Action.run_writes k action s).frame _
          (notMem_targets_of_not_setsLatency h).2)
    | scalingMinFreq cpuId =>
        exact value_runAll_still inputs
          (fun action h ↦ by cases Action.mayWrite_of_mem_targets h) rfl
    | swappiness =>
        exact value_runAll_still inputs
          (fun action h ↦ by cases Action.mayWrite_of_mem_targets h) rfl
    | dirtyBackgroundRatio =>
        exact value_runAll_still inputs
          (fun action h ↦ by cases Action.mayWrite_of_mem_targets h) rfl
    | _ => exact absurd trivial hcached

/-- No run makes a file. -/
theorem value_runAll_of_absent {w : World} (actions : List Action) (habsent : w.files a = none) :
    (Action.runAll k actions ⟨PolicyEngine.new cores, w⟩).world.files.value a = none := by
  have hsome := (Action.runAll_writes k actions ⟨PolicyEngine.new cores, w⟩).isSome_eq a
  have hnone : (Action.runAll k actions ⟨PolicyEngine.new cores, w⟩).world.files a = none := by
    simpa [habsent] using hsome
  rw [Sysfs.value, hnone]
  rfl

/-- A run is a product of control loops.  Whatever the kernel answers to the
writes of other attributes: if it accepts those of one attribute, and of what is
opened together with it, the value of this attribute after a run is that of its
loop, from the value that the machine shows at the start. -/
theorem value_run (k : Kernel) (cores : List CpuCoreInfo) (blocks : BlockLayer)
    (inputs : List TickInput) (w : World) (a : Attr)
    (hk : ∀ b ∈ a.openedWith, ∀ count files value, k count files b value = .accepted) :
    (Session.run k blocks inputs ⟨PolicyEngine.new cores, w⟩).world.files.value a =
      (w.files.value a).map ((a.loop cores blocks w.files).after inputs) := by
  rw [Action.run_eq]
  cases hfile : w.files a with
  | some text =>
      apply value_runAll_of_present inputs hk
      rw [hfile]
      rfl
  | none =>
      have hnone : w.files.value a = none := by
        rw [Sysfs.value, hfile]
        rfl
      rw [hnone]
      exact value_runAll_of_absent _ hfile

theorem value_run_sample :
    (Session.run .willing Session.noBlocks [Session.tickAt 90000, Session.tickAt 90000]
        ⟨PolicyEngine.new [Session.sampleCore], ⟨Session.sampleFiles, [], []⟩⟩).world.files.value
          (.scalingMaxFreq 0) = some (.number 2707500) := by
  rw [value_run .willing [Session.sampleCore] Session.noBlocks
    [Session.tickAt 90000, Session.tickAt 90000] ⟨Session.sampleFiles, [], []⟩ (.scalingMaxFreq 0)
    fun _ _ _ _ _ ↦ rfl]
  decide +kernel

end BetterCpu
