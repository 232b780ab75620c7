import BetterCpu.PolicyEngine.Cache
import BetterCpu.PolicyEngine.Hotter

/-!
# Schedulers and device classes

The engine gives a scheduler to NVMe devices and to rotational disks when it
starts, and then to the NVMe devices of every tick that is not idle.  When all
scheduler writes are accepted, a device has the scheduler that was asked for
last.  Nothing ever asks for one for a SATA SSD.
-/

namespace BetterCpu

open Text WriteCache

/-! ## Accepted scheduler writes -/

/-- Every write to a scheduler file between the two states of the machine was
accepted. -/
def World.SchedulersAccepted (w w' : World) : Prop :=
  ∀ event ∈ w'.writes.drop w.writes.length,
    ∀ deviceName, event.attr = .queueScheduler deviceName → event.answer = .accepted

theorem World.schedulersAccepted_iff {w w' : World} {events : List WriteEvent}
    (h : w'.writes = w.writes ++ events) :
    World.SchedulersAccepted w w' ↔
      ∀ event ∈ events, ∀ deviceName, event.attr = .queueScheduler deviceName →
        event.answer = .accepted := by
  rw [SchedulersAccepted, h, List.drop_left]

theorem World.SchedulersAccepted.split {targets targets' : List Attr} {u v w : World}
    (huv : World.Writes targets u v) (hvw : World.Writes targets' v w)
    (h : World.SchedulersAccepted u w) :
    World.SchedulersAccepted u v ∧ World.SchedulersAccepted v w := by
  obtain ⟨es, hes, -⟩ := huv.log
  obtain ⟨es', hes', -⟩ := hvw.log
  rw [World.schedulersAccepted_iff (by rw [hes', hes, List.append_assoc])] at h
  rw [World.schedulersAccepted_iff hes, World.schedulersAccepted_iff hes']
  exact ⟨fun event hevent ↦ h event (List.mem_append_left _ hevent),
    fun event hevent ↦ h event (List.mem_append_right _ hevent)⟩

/-- The writes of a run are accepted when those of its actions are. -/
theorem Action.guarded_schedulersAccepted {k : Kernel} {actions : List Action} {s : Session}
    (h : World.SchedulersAccepted s.world (runAll k actions s).world) :
    Run.Guarded (Action.run k)
      (fun action s ↦ World.SchedulersAccepted s.world (action.run k s).world) actions s := by
  induction actions generalizing s with
  | nil => trivial
  | cons action actions ih =>
      obtain ⟨hfirst, hrest⟩ := h.split (run_writes k action s)
        (runAll_writes k actions (action.run k s))
      exact ⟨hfirst, ih hrest⟩

/-! ## One action -/

def initialScheduler : DiskKind → Option Text
  | .nvme => some noneScheduler
  | .hdd => some mqDeadline
  | .ssdSata | .unknown => none

def nvmeScheduler (ioInProgress : UInt64) : Text :=
  if 4 < ioInProgress then mqDeadline else noneScheduler

/-- The scheduler that an action asks for the device. -/
def Action.requested (deviceName : Text) : Action → Option Text
  | initializeDevice name kind => if name = deviceName then initialScheduler kind else none
  | scheduleNvme name sample =>
      if name = deviceName then some (nvmeScheduler sample.ioInProgress) else none
  | _ => none

namespace Session

/-- The cache of the schedulers has what the devices have. -/
def SchedulersCoherent (s : Session) : Prop :=
  WriteCache.Coherent schedulerHolds s.engine.appliedSchedulers s.world

variable {k : Kernel} {s : Session} {deviceName scheduler : Text}

theorem schedulerHolds_of_accepted (hword : IsWord scheduler)
    (h : s.world.answer k (.queueScheduler deviceName) scheduler = .accepted) :
    schedulerHolds deviceName scheduler
      (IoStorage.setScheduler k deviceName scheduler s.world).2 := by
  have hfile : (IoStorage.setScheduler k deviceName scheduler s.world).2.files
      (.queueScheduler deviceName) = some (Attr.shown (.queueScheduler deviceName) scheduler) := by
    simp only [IoStorage.setScheduler, World.writeValue, h]
    exact World.flush_files_self hword.1
  rw [schedulerHolds, IoStorage.currentScheduler, hfile]
  exact IoStorage.bracketed_shown hword.2

theorem setSchedulerIfChanged_accepted (hs : s.SchedulersCoherent) (hword : IsWord scheduler)
    (haccepted : World.SchedulersAccepted s.world
      (s.setSchedulerIfChanged k deviceName scheduler).world) :
    (s.setSchedulerIfChanged k deviceName scheduler).SchedulersCoherent ∧
      schedulerHolds deviceName scheduler
        (s.setSchedulerIfChanged k deviceName scheduler).world := by
  have hcoherent := coherent_setIfChanged_iff (setScheduler_local k) hs deviceName scheduler
  by_cases hskip : s.engine.appliedSchedulers deviceName = some scheduler
  · have hworld : (s.setSchedulerIfChanged k deviceName scheduler).world = s.world := by
      simp [setSchedulerIfChanged, setIfChanged, hskip]
    exact ⟨hcoherent.mpr fun h ↦ absurd hskip h, hworld ▸ hs _ _ hskip⟩
  · have hworld : (s.setSchedulerIfChanged k deviceName scheduler).world =
        (IoStorage.setScheduler k deviceName scheduler s.world).2 := by
      simp [setSchedulerIfChanged, setIfChanged, hskip, setAndRecord]
    have hanswer : s.world.answer k (.queueScheduler deviceName) scheduler = .accepted := by
      have hlog : (IoStorage.setScheduler k deviceName scheduler s.world).2.writes =
          s.world.writes ++ [⟨.queueScheduler deviceName, scheduler,
            s.world.answer k (.queueScheduler deviceName) scheduler⟩] := rfl
      rw [hworld, World.schedulersAccepted_iff hlog] at haccepted
      exact haccepted _ List.mem_cons_self deviceName rfl
    have hholds := schedulerHolds_of_accepted hword hanswer
    exact ⟨hcoherent.mpr fun _ _ ↦ hholds, hworld ▸ hholds⟩

theorem SchedulersCoherent.congr {t : Session} {targets : List Attr} (hs : s.SchedulersCoherent)
    (hw : World.Writes targets s.world t.world)
    (hnot : ∀ deviceName, .queueScheduler deviceName ∉ targets)
    (hcache : t.engine.appliedSchedulers = s.engine.appliedSchedulers) :
    t.SchedulersCoherent := by
  rw [SchedulersCoherent, hcache]
  exact (hw.schedulers_iff hnot).mpr hs

theorem currentScheduler_of_writes {t : Session} {targets : List Attr}
    (hw : World.Writes targets s.world t.world) (hnot : .queueScheduler deviceName ∉ targets) :
    IoStorage.currentScheduler t.world.files deviceName =
      IoStorage.currentScheduler s.world.files deviceName := by
  rw [IoStorage.currentScheduler, IoStorage.currentScheduler, hw.frame _ hnot]

/-- The device that is set has the scheduler, and the others keep theirs. -/
theorem currentScheduler_setSchedulerIfChanged (hs : s.SchedulersCoherent)
    (hword : IsWord scheduler)
    (haccepted : World.SchedulersAccepted s.world
      (s.setSchedulerIfChanged k deviceName scheduler).world) (other : Text) :
    IoStorage.currentScheduler (s.setSchedulerIfChanged k deviceName scheduler).world.files
        other =
      (if deviceName = other then some scheduler else none).getD
        (IoStorage.currentScheduler s.world.files other) := by
  by_cases hother : deviceName = other
  · subst hother
    rw [if_pos rfl, Option.getD_some]
    exact (setSchedulerIfChanged_accepted hs hword haccepted).2
  · rw [if_neg hother, Option.getD_none]
    refine currentScheduler_of_writes (setSchedulerIfChanged_writes k deviceName scheduler s) ?_
    simpa using fun h ↦ hother h.symm

end Session

theorem isWord_nvmeScheduler (ioInProgress : UInt64) : IsWord (nvmeScheduler ioInProgress) := by
  unfold nvmeScheduler
  split <;> decide

/-- Besides the scheduler, `evaluate_io_policy` sets the latency targets. -/
theorem Session.scheduleNvme_writes_latency (k : Kernel) (deviceName : Text)
    (sample : DiskStatsSample) (s : Session) :
    let t := s.setSchedulerIfChanged k deviceName (nvmeScheduler sample.ioInProgress)
    World.Writes [.readLatNsec deviceName, .writeLatNsec deviceName] t.world
        (s.scheduleNvme k deviceName sample).world ∧
      (s.scheduleNvme k deviceName sample).engine = t.engine := by
  intro t
  simp only [scheduleNvme, t, nvmeScheduler]
  split
  · exact ⟨World.Writes.refl _ _, rfl⟩
  · exact ⟨setNvmeLatencyTarget_writes k deviceName _ _ _, rfl⟩

theorem Action.appliedSchedulers_capCore (k : Kernel) (readings : List ThermalZoneReading)
    (cpuId : Int32) (s : Session) :
    (s.capCore k readings cpuId).engine.appliedSchedulers = s.engine.appliedSchedulers := by
  unfold Session.capCore
  split
  · rfl
  · dsimp only
    split <;> rfl

/-- When its scheduler write is accepted, an action gives the device what it
asks for, and leaves every other device alone. -/
theorem Action.currentScheduler_run {k : Kernel} (deviceName : Text) (action : Action)
    (s : Session) (hs : s.SchedulersCoherent)
    (haccepted : World.SchedulersAccepted s.world (action.run k s).world) :
    (action.run k s).SchedulersCoherent ∧
      IoStorage.currentScheduler (action.run k s).world.files deviceName =
        (action.requested deviceName).getD
          (IoStorage.currentScheduler s.world.files deviceName) := by
  have hw := run_writes k action s
  have hframe (hnot : ∀ name, .queueScheduler name ∉ action.targets)
      (hcache : (action.run k s).engine.appliedSchedulers = s.engine.appliedSchedulers) :
      (action.run k s).SchedulersCoherent ∧
        IoStorage.currentScheduler (action.run k s).world.files deviceName =
          IoStorage.currentScheduler s.world.files deviceName :=
    ⟨hs.congr hw hnot hcache, Session.currentScheduler_of_writes hw (hnot deviceName)⟩
  cases action with
  | initializeCore cpuId => exact hframe (by simp [targets]) rfl
  | initializeDevice name kind =>
      cases kind with
      | nvme | hdd =>
          exact ⟨(Session.setSchedulerIfChanged_accepted hs (by decide) haccepted).1,
            Session.currentScheduler_setSchedulerIfChanged hs (by decide) haccepted deviceName⟩
      | ssdSata | unknown =>
          simp only [requested, initialScheduler, ite_self, Option.getD_none]
          exact hframe (by simp [targets]) rfl
  | capCore readings cpuId =>
      exact hframe (by simp [targets]) (appliedSchedulers_capCore k readings cpuId s)
  | setEpp cpuId eppValue => exact hframe (by simp [targets]) rfl
  | relieveMemory pressure topConsumers =>
      refine hframe (fun name ↦ ?_)
        (congrArg _ (Session.engine_evaluateMemoryPolicy k pressure topConsumers s))
      simp only [targets]
      split <;> simp
  | scheduleNvme name sample =>
      obtain ⟨hlatency, hengine⟩ := Session.scheduleNvme_writes_latency k name sample s
      have hword := isWord_nvmeScheduler sample.ioInProgress
      have hset := (haccepted.split (Session.setSchedulerIfChanged_writes k name _ s) hlatency).1
      have hcoherent := (Session.setSchedulerIfChanged_accepted hs hword hset).1
      refine ⟨hcoherent.congr hlatency (by simp) (by rw [← hengine]; rfl), ?_⟩
      exact (Session.currentScheduler_of_writes hlatency (by simp)).trans
        (Session.currentScheduler_setSchedulerIfChanged hs hword hset deviceName)

/-- In a run whose scheduler writes are accepted, a device has the scheduler
that was asked for last. -/
theorem Action.currentScheduler_runAll {k : Kernel} (deviceName : Text) (actions : List Action)
    {s : Session} (hs : s.SchedulersCoherent)
    (haccepted : World.SchedulersAccepted s.world (runAll k actions s).world) :
    IoStorage.currentScheduler (runAll k actions s).world.files deviceName =
      (Run.latest (Action.requested deviceName) actions).getD
        (IoStorage.currentScheduler s.world.files deviceName) :=
  Run.exec_eq_latest (fun s ↦ IoStorage.currentScheduler s.world.files deviceName)
    (currentScheduler_run deviceName) hs (guarded_schedulersAccepted haccepted)

/-! ## What a run asks for -/

/-- The requests in flight when the device was last sampled. -/
def Action.inFlight (deviceName : Text) : Action → Option UInt64
  | scheduleNvme name sample => if name = deviceName then some sample.ioInProgress else none
  | _ => none

/-- The requests in flight when a tick that is not idle samples the device. -/
def TickInput.inFlight (deviceName : Text) (input : TickInput) : Option UInt64 :=
  if input.activityLevel ≠ .idle ∧
      (IoStorage.listBlockDevices input.blocks.sysBlock).contains deviceName then
    some (input.blocks.diskStats deviceName).ioInProgress
  else none

theorem latest_requested_initialActions (deviceName : Text) (cores : List CpuCoreInfo)
    (blocks : BlockLayer) :
    Run.latest (Action.requested deviceName) (initialActions cores blocks) =
      if deviceName ∈ IoStorage.listBlockDevices blocks.sysBlock then
        initialScheduler (IoStorage.detectKind deviceName (blocks.rotational deviceName))
      else none := by
  apply Run.latest_eq
  · intro action haction scheduler hscheduler
    rcases List.mem_append.mp haction with hcore | hdevice
    · obtain ⟨cpuId, -, rfl⟩ := List.mem_map.mp hcore
      cases hscheduler
    · obtain ⟨name, hname, rfl⟩ := List.mem_map.mp hdevice
      simp only [Action.requested] at hscheduler
      split at hscheduler
      · next heq =>
          subst heq
          rwa [if_pos hname]
      · cases hscheduler
  · intro scheduler hscheduler
    split at hscheduler
    · next hdevice =>
        refine ⟨.initializeDevice deviceName
          (IoStorage.detectKind deviceName (blocks.rotational deviceName)), ?_, ?_⟩
        · exact List.mem_append_right _ (List.mem_map.mpr ⟨deviceName, hdevice, rfl⟩)
        · exact (if_pos rfl).trans hscheduler
    · cases hscheduler

/-- The actions of a tick ask for schedulers by the samples that they take. -/
theorem requested_of_mem_tickActions {cores : List CpuCoreInfo} {input : TickInput}
    {action : Action} (h : action ∈ tickActions cores input) (deviceName : Text) :
    action.requested deviceName = (action.inFlight deviceName).map nvmeScheduler := by
  cases tickAction_of_mem h with
  | cap | epp | memory => rfl
  | io =>
      simp only [Action.requested, Action.inFlight]
      split <;> rfl

/-- Only the turns of `evaluate_io_policy` sample a device. -/
theorem sampled_of_mem_tickActions {cores : List CpuCoreInfo} {input : TickInput}
    {action : Action} (h : action ∈ tickActions cores input) {deviceName : Text} {count : UInt64}
    (hcount : action.inFlight deviceName = some count) :
    input.activityLevel ≠ .idle ∧ deviceName ∈ nvmeDevices input.blocks ∧
      (input.blocks.diskStats deviceName).ioInProgress = count := by
  cases tickAction_of_mem h with
  | cap | epp | memory => cases hcount
  | io hbusy hdevice =>
      simp only [Action.inFlight] at hcount
      split at hcount
      · next heq =>
          subst heq
          exact ⟨hbusy, hdevice, Option.some.inj hcount⟩
      · cases hcount

theorem detectKind_eq_nvme_iff {deviceName : Text} {rotational : Option Text} :
    IoStorage.detectKind deviceName rotational = .nvme ↔
      ['n', 'v', 'm', 'e'].isPrefixOf deviceName = true := by
  unfold IoStorage.detectKind
  split
  · next hname => simp [hname]
  · next hname =>
      refine iff_of_false (fun h ↦ ?_) hname
      revert h
      split
      · exact DiskKind.noConfusion
      · split <;> exact DiskKind.noConfusion

/-- The kind NVMe is read off the name alone. -/
theorem detectKind_nvme_congr {deviceName : Text} {rotational : Option Text}
    (h : IoStorage.detectKind deviceName rotational = .nvme) (other : Option Text) :
    IoStorage.detectKind deviceName other = .nvme :=
  detectKind_eq_nvme_iff.mpr (detectKind_eq_nvme_iff.mp h)

theorem inFlight_eq_of_mem_tickActions {cores : List CpuCoreInfo} {input : TickInput}
    {action : Action} (h : action ∈ tickActions cores input) {deviceName : Text} {count : UInt64}
    (hcount : action.inFlight deviceName = some count) :
    input.inFlight deviceName = some count := by
  obtain ⟨hbusy, hdevice, rfl⟩ := sampled_of_mem_tickActions h hcount
  exact if_pos ⟨hbusy, List.contains_iff_mem.mpr (List.mem_of_mem_filter hdevice)⟩

/-- A tick samples an NVMe device if it lists the device and is not idle. -/
theorem latest_inFlight_tickActions (cores : List CpuCoreInfo) (input : TickInput)
    {deviceName : Text} {rotational : Option Text}
    (h : IoStorage.detectKind deviceName rotational = .nvme) :
    Run.latest (Action.inFlight deviceName) (tickActions cores input) =
      input.inFlight deviceName := by
  apply Run.latest_eq
  · intro action haction count hcount
    exact inFlight_eq_of_mem_tickActions haction hcount
  · intro count hcount
    unfold TickInput.inFlight at hcount
    split at hcount
    · next hlisted =>
        have hnvme : deviceName ∈ nvmeDevices input.blocks :=
          List.mem_filter.mpr ⟨List.contains_iff_mem.mp hlisted.2,
            by simpa using detectKind_nvme_congr h _⟩
        have hio := mem_ioActions_iff.mpr ⟨hlisted.1, deviceName, hnvme, rfl⟩
        refine ⟨.scheduleNvme deviceName (input.blocks.diskStats deviceName), ?_, ?_⟩
        · exact List.mem_append_right _ (List.mem_append_right _ (List.mem_cons_of_mem _ hio))
        · exact (if_pos rfl).trans hcount
    · cases hcount

theorem latest_inFlight_ticks (cores : List CpuCoreInfo) (ticks : List TickInput)
    {deviceName : Text} {rotational : Option Text}
    (h : IoStorage.detectKind deviceName rotational = .nvme) :
    Run.latest (Action.inFlight deviceName) (ticks.flatMap (tickActions cores)) =
      Run.latest (TickInput.inFlight deviceName) ticks := by
  induction ticks using List.reverseRecOn with
  | nil => rfl
  | append_singleton ticks input ih =>
      have htick : Run.latest (TickInput.inFlight deviceName) [input] =
          input.inFlight deviceName := by
        cases hinput : input.inFlight deviceName <;> simp [Run.latest, hinput]
      rw [List.flatMap_append, Run.latest_append, Run.latest_append, ih, List.flatMap_singleton,
        latest_inFlight_tickActions cores input h, htick]

/-- A device of another kind is never sampled. -/
theorem latest_inFlight_eq_none {cores : List CpuCoreInfo} {inputs : List TickInput}
    {done : List Action} (hdone : ∀ action ∈ done, action ∈ inputs.flatMap (tickActions cores))
    {deviceName : Text} {rotational : Option Text}
    (h : IoStorage.detectKind deviceName rotational ≠ .nvme) :
    Run.latest (Action.inFlight deviceName) done = none := by
  apply Run.latest_eq _ (by simp)
  intro action haction count hcount
  obtain ⟨input, -, hinput⟩ := List.mem_flatMap.mp (hdone action haction)
  obtain ⟨-, hnvme, -⟩ := sampled_of_mem_tickActions hinput hcount
  exact absurd (detectKind_nvme_congr (by simpa using (List.mem_filter.mp hnvme).2) _) h

/-! ## The device classes -/

/-- What is expected of a state that the engine has reached by the actions
`done` since the initial tuning; `before` are the files before that. -/
structure Session.FollowsDeviceClass (blocks : BlockLayer) (before : Sysfs)
    (done : List Action) (s : Session) : Prop where
  disks : ∀ deviceName ∈ IoStorage.listBlockDevices blocks.sysBlock,
    IoStorage.detectKind deviceName (blocks.rotational deviceName) = .hdd ∨
        IoStorage.detectKind deviceName (blocks.rotational deviceName) = .ssdSata →
      IoStorage.currentScheduler s.world.files deviceName = mqDeadline
  unknown : ∀ deviceName ∈ IoStorage.listBlockDevices blocks.sysBlock,
    IoStorage.detectKind deviceName (blocks.rotational deviceName) = .unknown →
      IoStorage.currentScheduler s.world.files deviceName =
        IoStorage.currentScheduler before deviceName
  nvme : ∀ deviceName,
    IoStorage.detectKind deviceName (blocks.rotational deviceName) = .nvme →
      deviceName ∈ IoStorage.listBlockDevices blocks.sysBlock ∨
          Run.latest (Action.inFlight deviceName) done ≠ none →
        IoStorage.currentScheduler s.world.files deviceName =
          if (Run.latest (Action.inFlight deviceName) done).any (4 < ·) then mqDeadline
          else noneScheduler

namespace Session

variable {k : Kernel} {cores : List CpuCoreInfo} {blocks : BlockLayer} {inputs : List TickInput}
  {w : World} {done : List Action}

/-- The scheduler of a device in any state of the run. -/
theorem currentScheduler_of_run
    (haccepted : World.SchedulersAccepted w
      (Session.run k blocks inputs ⟨PolicyEngine.new cores, w⟩).world)
    (hdone : done <+: inputs.flatMap (tickActions cores)) (deviceName : Text) :
    IoStorage.currentScheduler
        (Action.runAll k done (applyInitialState k blocks ⟨PolicyEngine.new cores, w⟩)).world.files
        deviceName =
      (((Run.latest (Action.inFlight deviceName) done).map nvmeScheduler).or
        (if deviceName ∈ IoStorage.listBlockDevices blocks.sysBlock then
          initialScheduler (IoStorage.detectKind deviceName (blocks.rotational deviceName))
        else none)).getD
          (IoStorage.currentScheduler w.files deviceName) := by
  obtain ⟨rest, hrest⟩ := hdone
  have htick : ∀ action ∈ done, action.requested deviceName =
      (action.inFlight deviceName).map nvmeScheduler := by
    intro action haction
    have hmem : action ∈ inputs.flatMap (tickActions cores) :=
      hrest ▸ List.mem_append_left rest haction
    obtain ⟨input, -, hinput⟩ := List.mem_flatMap.mp hmem
    exact requested_of_mem_tickActions hinput deviceName
  have hcores : (⟨PolicyEngine.new cores, w⟩ : Session).engine.cores = cores := rfl
  have hreached : World.SchedulersAccepted w (Action.runAll k (initialActions cores blocks ++ done)
      ⟨PolicyEngine.new cores, w⟩).world := by
    rw [Action.run_eq, runActions, hcores, ← hrest, ← List.append_assoc,
      Action.runAll_append] at haccepted
    exact (haccepted.split (Action.runAll_writes k _ ⟨PolicyEngine.new cores, w⟩)
      (Action.runAll_writes k rest _)).1
  have hstate := Action.currentScheduler_runAll deviceName _
    (coherent_new cores w).schedulers hreached
  rw [Action.runAll_append, Run.latest_append, Run.latest_map nvmeScheduler htick,
    latest_requested_initialActions] at hstate
  rw [Action.applyInitialState_eq]
  exact hstate

theorem followsDeviceClass_of_run
    (haccepted : World.SchedulersAccepted w
      (Session.run k blocks inputs ⟨PolicyEngine.new cores, w⟩).world)
    (hdone : done <+: inputs.flatMap (tickActions cores))
    (hssd : ∀ deviceName ∈ IoStorage.listBlockDevices blocks.sysBlock,
      IoStorage.detectKind deviceName (blocks.rotational deviceName) = .ssdSata →
        IoStorage.currentScheduler w.files deviceName = mqDeadline) :
    FollowsDeviceClass blocks w.files done
      (Action.runAll k done (applyInitialState k blocks ⟨PolicyEngine.new cores, w⟩)) := by
  have hstate := currentScheduler_of_run haccepted hdone
  have hunsampled {deviceName : Text}
      (hkind : IoStorage.detectKind deviceName (blocks.rotational deviceName) ≠ .nvme) :
      Run.latest (Action.inFlight deviceName) done = none :=
    latest_inFlight_eq_none (fun action haction ↦ hdone.subset haction) hkind
  refine ⟨?_, ?_, ?_⟩
  · rintro deviceName hdevice (hkind | hkind)
    · rw [hstate, hunsampled (by simp [hkind]), if_pos hdevice, hkind]
      rfl
    · rw [hstate, hunsampled (by simp [hkind]), if_pos hdevice, hkind]
      exact hssd deviceName hdevice hkind
  · intro deviceName hdevice hkind
    rw [hstate, hunsampled (by simp [hkind]), if_pos hdevice, hkind]
    rfl
  · intro deviceName hkind hlisted
    rw [hstate]
    cases hlast : Run.latest (Action.inFlight deviceName) done with
    | some count => simp [nvmeScheduler]
    | none =>
        rw [if_pos (hlisted.resolve_right (not_not.mpr hlast)), hkind]
        rfl

/-- In every state of a run whose scheduler writes are accepted, the schedulers
follow the device classes if and only if the SATA SSDs of the initial list had
`mq-deadline` anyway.  Between two ticks, the last sample of an NVMe device is
that of the last tick that lists it and is not idle. -/
theorem follows_deviceClass_iff (k : Kernel) (cores : List CpuCoreInfo) (blocks : BlockLayer)
    (inputs : List TickInput) (w : World)
    (haccepted : World.SchedulersAccepted w
      (Session.run k blocks inputs ⟨PolicyEngine.new cores, w⟩).world) :
    ((∀ done, done <+: inputs.flatMap (tickActions cores) →
        FollowsDeviceClass blocks w.files done
          (Action.runAll k done (applyInitialState k blocks ⟨PolicyEngine.new cores, w⟩))) ↔
      ∀ deviceName ∈ IoStorage.listBlockDevices blocks.sysBlock,
        IoStorage.detectKind deviceName (blocks.rotational deviceName) = .ssdSata →
          IoStorage.currentScheduler w.files deviceName = mqDeadline) ∧
      ∀ ticks, ticks <+: inputs → ∀ deviceName,
        IoStorage.detectKind deviceName (blocks.rotational deviceName) = .nvme →
          Run.latest (Action.inFlight deviceName) (ticks.flatMap (tickActions cores)) =
            Run.latest (TickInput.inFlight deviceName) ticks := by
  refine ⟨⟨?_, ?_⟩, fun ticks _ deviceName hnvme ↦ latest_inFlight_ticks cores ticks hnvme⟩
  · intro hfollows deviceName hdevice hkind
    have hdisk := (hfollows [] (List.nil_prefix)).disks deviceName hdevice (Or.inr hkind)
    rw [currentScheduler_of_run haccepted (List.nil_prefix) deviceName] at hdisk
    simpa [hkind, initialScheduler] using hdisk
  · intro hssd done hdone
    exact followsDeviceClass_of_run haccepted hdone hssd

/-- An NVMe device, a rotational disk and a SATA SSD. -/
def threeDisks : BlockLayer where
  sysBlock := [['n', 'v', 'm', 'e', '0', 'n', '1'], ['s', 'd', 'a'], ['s', 'd', 'b']]
  rotational := fun deviceName ↦ some (if deviceName = ['s', 'd', 'a'] then ['1'] else ['0'])
  diskStats := fun deviceName ↦ ⟨deviceName, 0, 0, 0, 0, 5, 0⟩

/-- The SATA SSD shows the given scheduler and the others have none. -/
def diskFiles (scheduler : Text) : Sysfs
  | .queueScheduler deviceName =>
      some (Attr.shown (.queueScheduler deviceName)
        (if deviceName = ['s', 'd', 'b'] then scheduler else noneScheduler))
  | _ => none

def busyTick : TickInput :=
  { tickAt 90000 with blocks := threeDisks }

/-- Every write is accepted, and the SATA SSD keeps the scheduler `none`. -/
theorem not_follows_deviceClass_threeDisks :
    ¬ (World.SchedulersAccepted ⟨diskFiles noneScheduler, [], []⟩
          (Session.run .willing threeDisks []
            ⟨PolicyEngine.new [], ⟨diskFiles noneScheduler, [], []⟩⟩).world →
        FollowsDeviceClass threeDisks (diskFiles noneScheduler) []
          (applyInitialState .willing threeDisks
            ⟨PolicyEngine.new [], ⟨diskFiles noneScheduler, [], []⟩⟩)) := by
  have hanswers : ∀ event ∈ (Session.run .willing threeDisks []
      ⟨PolicyEngine.new [], ⟨diskFiles noneScheduler, [], []⟩⟩).world.writes,
      event.answer = .accepted := by
    decide +kernel
  intro h
  have hssd := (h fun event hevent _ _ ↦ hanswers event hevent).disks ['s', 'd', 'b']
    (by decide) (by decide)
  revert hssd
  decide +kernel

theorem follows_deviceClass_threeDisks :
    FollowsDeviceClass threeDisks (diskFiles mqDeadline) (tickActions [] busyTick)
      (Action.runAll .willing (tickActions [] busyTick) (applyInitialState .willing threeDisks
        ⟨PolicyEngine.new [], ⟨diskFiles mqDeadline, [], []⟩⟩)) := by
  have hanswers : ∀ event ∈ (Session.run .willing threeDisks [busyTick]
      ⟨PolicyEngine.new [], ⟨diskFiles mqDeadline, [], []⟩⟩).world.writes,
      event.answer = .accepted := by
    decide +kernel
  have hssd : ∀ deviceName ∈ IoStorage.listBlockDevices threeDisks.sysBlock,
      IoStorage.detectKind deviceName (threeDisks.rotational deviceName) = .ssdSata →
        IoStorage.currentScheduler (diskFiles mqDeadline) deviceName = mqDeadline := by
    decide +kernel
  apply (follows_deviceClass_iff .willing [] threeDisks [busyTick] ⟨diskFiles mqDeadline, [], []⟩
    fun event hevent _ _ ↦ hanswers event hevent).1.mpr hssd
  simp

end Session
end BetterCpu
