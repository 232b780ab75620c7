import BetterCpu.Library.Requests
import BetterCpu.PolicyEngine.Schedulers

/-!
# What the caches pass on

Governors, preferences and schedulers are set through a cache.  An action asks
for at most one value of such an attribute; a value that the cache has already
is dropped, and any other is written and remembered, unless the file does not
open.
-/

namespace BetterCpu

open Text

/-! ## Requests -/

/-- The attributes that are written through a cache and in no other way. -/
def Attr.IsCached : Attr → Prop
  | .scalingGovernor _ | .energyPerformancePreference _ | .queueScheduler _ => True
  | _ => False

/-- What the cache of the attribute has, as the text that was written. -/
def Session.cached (s : Session) : Attr → Option Text
  | .scalingGovernor cpuId => s.engine.appliedGovernors cpuId
  | .energyPerformancePreference cpuId =>
      (s.engine.appliedEpp cpuId).map fun epp ↦ decimalInt epp.toInt
  | .queueScheduler deviceName => s.engine.appliedSchedulers deviceName
  | _ => none

/-- The value that an action asks for. -/
def Action.request (a : Attr) : Action → Option Text
  | initializeCore cpuId => if a = .scalingGovernor cpuId then some schedutil else none
  | initializeDevice deviceName kind =>
      if a = .queueScheduler deviceName then initialScheduler kind else none
  | setEpp cpuId eppValue =>
      if a = .energyPerformancePreference cpuId then some (decimalInt eppValue.toInt) else none
  | scheduleNvme deviceName sample =>
      if a = .queueScheduler deviceName then some (nvmeScheduler sample.ioInProgress) else none
  | _ => none

def World.writesTo (w : World) (a : Attr) : List WriteEvent :=
  w.writes.filter fun event ↦ event.attr = a

theorem World.Writes.writesTo_eq {targets : List Attr} {w w' : World} {a : Attr}
    (h : World.Writes targets w w') (ha : a ∉ targets) : w'.writesTo a = w.writesTo a := by
  obtain ⟨events, hlog, hmem⟩ := h.log
  have hnone : events.filter (fun event ↦ event.attr = a) = [] := by
    rw [List.filter_eq_nil_iff]
    intro event hevent
    have htarget := hmem event hevent
    simp only [decide_eq_true_eq]
    rintro rfl
    exact ha htarget
  rw [writesTo, hlog, List.filter_append, hnone, List.append_nil, writesTo]

/-! ## What becomes of a request -/

structure Untouched (a : Attr) (s s' : Session) : Prop where
  cached : s'.cached a = s.cached a
  writesTo : s'.world.writesTo a = s.world.writesTo a
  files : s'.world.files a = s.world.files a

/-- Nothing is asked, the value is dropped, or it is passed on to the kernel. -/
inductive Served (k : Kernel) (a : Attr) (s s' : Session) : Option Text → Prop
  | unasked (h : Untouched a s s') : Served k a s s' none
  | dropped {value : Text} (hcached : s.cached a = some value) (h : Untouched a s s') :
      Served k a s s' (some value)
  | passed {value : Text} (hcached : s.cached a ≠ some value)
      (hnext : s'.cached a =
        if s.world.answer k a value = .refusedAtOpen then s.cached a else some value)
      (hlog : s'.world.writesTo a =
        s.world.writesTo a ++ [⟨a, value, s.world.answer k a value⟩])
      (hfile : s'.world.files a = (s.world.writeValue k a value).2.files a) :
      Served k a s s' (some value)

theorem Served.then_untouched {k : Kernel} {a : Attr} {s t u : Session} {request : Option Text}
    (h : Served k a s t request) (hu : Untouched a t u) : Served k a s u request := by
  cases h with
  | unasked h =>
      exact .unasked ⟨hu.cached.trans h.cached, hu.writesTo.trans h.writesTo,
        hu.files.trans h.files⟩
  | dropped hcached h =>
      exact .dropped hcached ⟨hu.cached.trans h.cached, hu.writesTo.trans h.writesTo,
        hu.files.trans h.files⟩
  | passed hcached hnext hlog hfile =>
      exact .passed hcached (hu.cached.trans hnext) (hu.writesTo.trans hlog)
        (hu.files.trans hfile)

theorem decimalInt_toInt_injective :
    Function.Injective fun z : Int32 ↦ decimalInt z.toInt := by
  intro y z h
  have hread := congrArg (fun t ↦ ((IStream.ofText (t ++ ['\n'])).int32 0).1) h
  simpa only [IStream.int32_line] using hread

theorem writesTo_writeValue (k : Kernel) (a : Attr) (value : Text) (w : World) :
    (w.writeValue k a value).2.writesTo a =
      w.writesTo a ++ [⟨a, value, w.answer k a value⟩] := by
  simp [World.writeValue, World.flush, World.writesTo]

/-- A setter behind a cache serves the request for its attribute. -/
theorem served_of_setIfChanged {κ ν : Type*} [DecidableEq κ] [DecidableEq ν] {k : Kernel}
    (a : κ → Attr) (text : ν → Text) (htext : Function.Injective text) {key : κ} {value : ν}
    {cache : κ → Option ν} {s s' : Session}
    (hcache : s.cached (a key) = (cache key).map text)
    (hcache' : s'.cached (a key) =
      ((setIfChanged (fun key value w ↦ w.writeValue k (a key) (text value)) cache key value
        s.world).1 key).map text)
    (hworld : s'.world =
      (setIfChanged (fun key value w ↦ w.writeValue k (a key) (text value)) cache key value
        s.world).2) :
    Served k (a key) s s' (some (text value)) := by
  by_cases hskip : cache key = some value
  · have hsame : setIfChanged (fun key value w ↦ w.writeValue k (a key) (text value)) cache key
        value s.world = (cache, s.world) := by simp [setIfChanged, hskip]
    rw [hsame] at hcache' hworld
    apply Served.dropped
    · rw [hcache, hskip]
      rfl
    · exact ⟨hcache'.trans hcache.symm, by rw [hworld], by rw [hworld]⟩
  · have hwrite : setIfChanged (fun key value w ↦ w.writeValue k (a key) (text value)) cache key
        value s.world = setAndRecord (fun key value w ↦ w.writeValue k (a key) (text value)) cache
          key value s.world := by simp [setIfChanged, hskip]
    rw [hwrite] at hcache' hworld
    apply Served.passed
    · rw [hcache]
      intro hvalue
      apply hskip
      obtain ⟨v, hv, htexts⟩ := Option.map_eq_some_iff.mp hvalue
      rw [hv, htext htexts]
    · rw [hcache', hcache]
      by_cases hopen : s.world.answer k (a key) (text value) = .refusedAtOpen
      · simp [setAndRecord, World.writeValue, hopen]
      · simp [setAndRecord, World.writeValue, hopen]
    · rw [hworld]
      exact writesTo_writeValue k (a key) (text value) s.world
    · rw [hworld]
      rfl

theorem setIfChanged_cache_of_ne {κ ν ω : Type*} [DecidableEq κ] [DecidableEq ν]
    {set : κ → ν → ω → Bool × ω} {cache : κ → Option ν} {key other : κ} {value : ν} {w : ω}
    (h : other ≠ key) : (setIfChanged set cache key value w).1 other = cache other := by
  unfold setIfChanged setAndRecord
  split
  · rfl
  · dsimp only
    split
    · exact Function.update_of_ne h _ _
    · rfl

namespace Session

variable (k : Kernel) (s : Session)

theorem untouched_of_writes {a : Attr} {s' : Session} {targets : List Attr}
    (hwrites : World.Writes targets s.world s'.world) (ha : a ∉ targets)
    (hcached : s'.cached a = s.cached a) : Untouched a s s' :=
  ⟨hcached, hwrites.writesTo_eq ha, hwrites.frame a ha⟩

theorem cached_congr {s' : Session}
    (hgovernors : s'.engine.appliedGovernors = s.engine.appliedGovernors)
    (hepp : s'.engine.appliedEpp = s.engine.appliedEpp)
    (hschedulers : s'.engine.appliedSchedulers = s.engine.appliedSchedulers) (a : Attr) :
    s'.cached a = s.cached a := by
  cases a <;> simp [cached, hgovernors, hepp, hschedulers]

theorem cached_capCore (readings : List ThermalZoneReading) (cpuId : Int32) (a : Attr) :
    (s.capCore k readings cpuId).cached a = s.cached a := by
  unfold capCore
  split
  · rfl
  · dsimp only
    split
    · exact cached_congr s rfl rfl rfl a
    · rfl

theorem served_initializeCore (cpuId : Int32) :
    Served k (.scalingGovernor cpuId) s (s.initializeCore k cpuId) (some schedutil) :=
  served_of_setIfChanged Attr.scalingGovernor id Function.injective_id
    Option.map_id'.symm Option.map_id'.symm rfl

theorem served_setEppIfChanged (cpuId eppValue : Int32) :
    Served k (.energyPerformancePreference cpuId) s (s.setEppIfChanged k cpuId eppValue)
      (some (decimalInt eppValue.toInt)) :=
  served_of_setIfChanged Attr.energyPerformancePreference (fun epp : Int32 ↦ decimalInt epp.toInt)
    decimalInt_toInt_injective rfl rfl rfl

theorem served_setSchedulerIfChanged (deviceName schedulerName : Text) :
    Served k (.queueScheduler deviceName) s (s.setSchedulerIfChanged k deviceName schedulerName)
      (some schedulerName) :=
  served_of_setIfChanged Attr.queueScheduler id Function.injective_id
    Option.map_id'.symm Option.map_id'.symm rfl

theorem cached_initializeCore {a : Attr} {cpuId : Int32} (h : a ≠ .scalingGovernor cpuId) :
    (s.initializeCore k cpuId).cached a = s.cached a := by
  cases a with
  | scalingGovernor other => exact setIfChanged_cache_of_ne (by simpa using h)
  | _ => rfl

theorem cached_setEppIfChanged {a : Attr} {cpuId eppValue : Int32}
    (h : a ≠ .energyPerformancePreference cpuId) :
    (s.setEppIfChanged k cpuId eppValue).cached a = s.cached a := by
  cases a with
  | energyPerformancePreference other =>
      exact congrArg (Option.map fun epp : Int32 ↦ decimalInt epp.toInt)
        (setIfChanged_cache_of_ne (by simpa using h))
  | _ => rfl

theorem cached_setSchedulerIfChanged {a : Attr} {deviceName schedulerName : Text}
    (h : a ≠ .queueScheduler deviceName) :
    (s.setSchedulerIfChanged k deviceName schedulerName).cached a = s.cached a := by
  cases a with
  | queueScheduler other => exact setIfChanged_cache_of_ne (by simpa using h)
  | _ => rfl

/-- The latency targets have no part in what is cached. -/
theorem untouched_scheduleNvme {a : Attr} (ha : a.IsCached) (deviceName : Text)
    (sample : DiskStatsSample) :
    Untouched a (s.setSchedulerIfChanged k deviceName (nvmeScheduler sample.ioInProgress))
      (s.scheduleNvme k deviceName sample) := by
  obtain ⟨hlatency, hengine⟩ := scheduleNvme_writes_latency k deviceName sample s
  refine untouched_of_writes _ hlatency ?_
    (cached_congr _ (congrArg _ hengine) (congrArg _ hengine) (congrArg _ hengine) a)
  intro hmem
  obtain rfl | rfl : a = .readLatNsec deviceName ∨ a = .writeLatNsec deviceName := by
    simpa using hmem
  · exact ha
  · exact ha

theorem served_scheduleNvme {a : Attr} (ha : a.IsCached) (deviceName : Text)
    (sample : DiskStatsSample) :
    Served k a s (s.scheduleNvme k deviceName sample)
      ((Action.scheduleNvme deviceName sample).request a) := by
  apply Served.then_untouched _ (untouched_scheduleNvme k s ha deviceName sample)
  simp only [Action.request]
  split
  · next h =>
      subst h
      exact served_setSchedulerIfChanged k s deviceName _
  · next h =>
      have hscheduler := setSchedulerIfChanged_writes k deviceName
        (nvmeScheduler sample.ioInProgress) s
      exact .unasked (untouched_of_writes s hscheduler (by simpa using h)
        (cached_setSchedulerIfChanged k s h))

end Session

/-- Every action serves its request for a cached attribute, and does nothing
else to it. -/
theorem Action.served (k : Kernel) {a : Attr} (ha : a.IsCached) (action : Action) (s : Session) :
    Served k a s (action.run k s) (action.request a) := by
  have hw := run_writes k action s
  cases action with
  | initializeCore cpuId =>
      simp only [request]
      split
      · next h =>
          subst h
          exact Session.served_initializeCore k s cpuId
      · next h =>
          exact .unasked (Session.untouched_of_writes s hw (by simpa [targets] using h)
            (Session.cached_initializeCore k s h))
  | initializeDevice deviceName kind =>
      simp only [request]
      split
      · next h =>
          subst h
          cases kind with
          | nvme | hdd => exact Session.served_setSchedulerIfChanged k s deviceName _
          | ssdSata | unknown => exact .unasked ⟨rfl, rfl, rfl⟩
      · next h =>
          apply Served.unasked
          cases kind with
          | nvme | hdd =>
              exact Session.untouched_of_writes s hw (by simpa [targets] using h)
                (Session.cached_setSchedulerIfChanged k s h)
          | ssdSata | unknown => exact ⟨rfl, rfl, rfl⟩
  | capCore readings cpuId =>
      refine .unasked (Session.untouched_of_writes s hw ?_ (Session.cached_capCore k s _ _ a))
      simp only [targets, List.mem_singleton]
      rintro rfl
      exact ha
  | setEpp cpuId eppValue =>
      simp only [request]
      split
      · next h =>
          subst h
          exact Session.served_setEppIfChanged k s cpuId eppValue
      · next h =>
          exact .unasked (Session.untouched_of_writes s hw (by simpa [targets] using h)
            (Session.cached_setEppIfChanged k s h))
  | relieveMemory pressure topConsumers =>
      have hengine := Session.engine_evaluateMemoryPolicy k pressure topConsumers s
      refine .unasked (Session.untouched_of_writes s hw ?_
        (Session.cached_congr s (congrArg _ hengine) (congrArg _ hengine) (congrArg _ hengine) a))
      intro hmem
      cases mayWrite_of_mem_targets hmem with
      | vfsCachePressure | dirtyRatio => exact ha
  | scheduleNvme deviceName sample => exact Session.served_scheduleNvme k s ha deviceName sample

/-! ## What a run asks for -/

/-- What `apply_initial_state` asks for the attribute. -/
def initialRequest (cores : List CpuCoreInfo) (blocks : BlockLayer) : Attr → Option Text
  | .scalingGovernor cpuId => if (onlineIds cores).contains cpuId then some schedutil else none
  | .queueScheduler deviceName =>
      if (IoStorage.listBlockDevices blocks.sysBlock).contains deviceName then
        initialScheduler (IoStorage.detectKind deviceName (blocks.rotational deviceName))
      else none
  | _ => none

/-- What a tick asks for the attribute. -/
def TickInput.request (cores : List CpuCoreInfo) (a : Attr) (input : TickInput) : Option Text :=
  match a with
  | .energyPerformancePreference cpuId =>
      if input.policyOnlineCores ≠ 0 ∧ (onlineIds cores).contains cpuId then
        some (decimalInt (Session.targetEpp input.activityLevel
          (Session.normalizedLoad input.policyLoad input.policyOnlineCores)).toInt)
      else none
  | .queueScheduler deviceName =>
      if input.activityLevel ≠ .idle ∧ (nvmeDevices input.blocks).contains deviceName then
        some (nvmeScheduler (input.blocks.diskStats deviceName).ioInProgress)
      else none
  | _ => none

section Requests

variable {cores : List CpuCoreInfo} {blocks : BlockLayer} {input : TickInput} {a : Attr}

theorem request_of_mem_initialActions {action : Action}
    (h : action ∈ initialActions cores blocks) {value : Text}
    (hvalue : action.request a = some value) :
    initialRequest cores blocks a = some value := by
  rcases List.mem_append.mp h with hcore | hdevice
  · obtain ⟨cpuId, hcpu, rfl⟩ := List.mem_map.mp hcore
    simp only [Action.request] at hvalue
    split at hvalue
    · next heq =>
        subst heq
        simpa [initialRequest, hcpu] using hvalue
    · cases hvalue
  · obtain ⟨deviceName, hname, rfl⟩ := List.mem_map.mp hdevice
    simp only [Action.request] at hvalue
    split at hvalue
    · next heq =>
        subst heq
        simpa [initialRequest, hname] using hvalue
    · cases hvalue

theorem exists_initialActions_of_request {value : Text}
    (h : initialRequest cores blocks a = some value) :
    ∃ action ∈ initialActions cores blocks, action.request a = some value := by
  cases a with
  | scalingGovernor cpuId =>
      simp only [initialRequest, Option.ite_none_right_eq_some, List.contains_iff_mem] at h
      refine ⟨.initializeCore cpuId, List.mem_append_left _ (List.mem_map_of_mem h.1), ?_⟩
      simpa [Action.request] using h.2
  | queueScheduler deviceName =>
      simp only [initialRequest, Option.ite_none_right_eq_some, List.contains_iff_mem] at h
      refine ⟨.initializeDevice deviceName (IoStorage.detectKind deviceName
        (blocks.rotational deviceName)), ?_, ?_⟩
      · exact List.mem_append_right _ (List.mem_map.mpr ⟨deviceName, h.1, rfl⟩)
      · simpa [Action.request] using h.2
  | _ => cases h

theorem request_of_mem_tickActions {action : Action} (h : action ∈ tickActions cores input)
    {value : Text} (hvalue : action.request a = some value) :
    input.request cores a = some value := by
  rcases List.mem_append.mp h with hthermal | hlater
  · obtain ⟨cpuId, -, rfl⟩ := List.mem_map.mp hthermal
    cases hvalue
  · rcases List.mem_append.mp hlater with hload | hrest
    · unfold loadActions at hload
      split at hload
      · cases hload
      · next honline =>
          obtain ⟨cpuId, hcpu, rfl⟩ := List.mem_map.mp hload
          simp only [Action.request] at hvalue
          split at hvalue
          · next heq =>
              subst heq
              simpa [TickInput.request, honline, hcpu] using hvalue
          · cases hvalue
    · rcases List.mem_cons.mp hrest with rfl | hio
      · cases hvalue
      · obtain ⟨hbusy, deviceName, hname, rfl⟩ := mem_ioActions_iff.mp hio
        simp only [Action.request] at hvalue
        split at hvalue
        · next heq =>
            subst heq
            simpa [TickInput.request, hbusy, hname] using hvalue
        · cases hvalue

theorem exists_tickActions_of_request {value : Text} (h : input.request cores a = some value) :
    ∃ action ∈ tickActions cores input, action.request a = some value := by
  cases a with
  | energyPerformancePreference cpuId =>
      simp only [TickInput.request, Option.ite_none_right_eq_some, List.contains_iff_mem] at h
      obtain ⟨⟨honline, hcpu⟩, hvalue⟩ := h
      refine ⟨.setEpp cpuId (Session.targetEpp input.activityLevel
        (Session.normalizedLoad input.policyLoad input.policyOnlineCores)), ?_, ?_⟩
      · apply List.mem_append_right
        apply List.mem_append_left
        simpa [loadActions, honline] using hcpu
      · simpa [Action.request] using hvalue
  | queueScheduler deviceName =>
      simp only [TickInput.request, Option.ite_none_right_eq_some, List.contains_iff_mem] at h
      obtain ⟨⟨hbusy, hname⟩, hvalue⟩ := h
      refine ⟨.scheduleNvme deviceName (input.blocks.diskStats deviceName), ?_, ?_⟩
      · apply List.mem_append_right
        apply List.mem_append_right
        exact List.mem_cons_of_mem _ (mem_ioActions_iff.mpr ⟨hbusy, deviceName, hname, rfl⟩)
      · simpa [Action.request] using hvalue
  | _ => cases h

/-- If all that the actions ask for is what the start and the ticks ask for, a law
that the requests drive is the same over the actions of a run as over its
inputs.  The same request twice has to do what it does once. -/
theorem exec_runActions_asking {ν σ : Type*} {f : Action → Option ν} {start : Option ν}
    {request : TickInput → Option ν} (act : ν → σ → σ)
    (hagain : ∀ u v, act u (act u v) = act u v)
    (hstart : ∀ action ∈ initialActions cores blocks, ∀ u, f action = some u → start = some u)
    (hstarted : ∀ u, start = some u → ∃ action ∈ initialActions cores blocks, f action = some u)
    (htick : ∀ input, ∀ action ∈ tickActions cores input, ∀ u, f action = some u →
      request input = some u)
    (hticked : ∀ input u, request input = some u →
      ∃ action ∈ tickActions cores input, f action = some u)
    (inputs : List TickInput) (v : σ) :
    Run.exec (fun action v ↦ (f action).elim v fun u ↦ act u v) (runActions cores blocks inputs) v =
      Run.exec act (start.toList ++ inputs.filterMap request) v := by
  have hinitial : Run.exec act start.toList v = start.elim v fun u ↦ act u v := by
    cases start <;> rfl
  rw [runActions, Run.exec_append, Run.exec_append, Run.exec_asking hagain hstart hstarted,
    hinitial]
  generalize start.elim v (fun u ↦ act u v) = v
  induction inputs generalizing v with
  | nil => rfl
  | cons input inputs ih =>
      rw [List.flatMap_cons, Run.exec_append,
        Run.exec_asking hagain (htick input) (hticked input), ih, List.filterMap_cons]
      cases request input <;> rfl

theorem exec_runActions {σ : Type*} (act : Text → σ → σ)
    (hagain : ∀ value v, act value (act value v) = act value v) (inputs : List TickInput) (v : σ) :
    Run.exec (fun (action : Action) v ↦ (action.request a).elim v fun value ↦ act value v)
        (runActions cores blocks inputs) v =
      Run.exec act ((initialRequest cores blocks a).toList ++
        inputs.filterMap (TickInput.request cores a)) v :=
  exec_runActions_asking act hagain (fun _ haction _ ↦ request_of_mem_initialActions haction)
    (fun _ ↦ exists_initialActions_of_request)
    (fun _ _ haction _ ↦ request_of_mem_tickActions haction)
    (fun _ _ ↦ exists_tickActions_of_request) inputs v

end Requests

/-! ## The writes of a run -/

/-- The writes to the attribute between two states of the machine were answered
in one of these ways. -/
def World.Answered (P : Answer → Prop) (a : Attr) (w w' : World) : Prop :=
  ∀ event ∈ (w'.writesTo a).drop (w.writesTo a).length, P event.answer

theorem World.answered_iff {P : Answer → Prop} {a : Attr} {w w' : World}
    {events : List WriteEvent} (h : w'.writesTo a = w.writesTo a ++ events) :
    World.Answered P a w w' ↔ ∀ event ∈ events, P event.answer := by
  rw [Answered, h, List.drop_left]

theorem World.Writes.exists_writesTo {targets : List Attr} {w w' : World}
    (h : World.Writes targets w w') (a : Attr) :
    ∃ events, w'.writesTo a = w.writesTo a ++ events := by
  obtain ⟨events, hlog, -⟩ := h.log
  exact ⟨events.filter fun event ↦ event.attr = a, by
    rw [writesTo, hlog, List.filter_append, writesTo]⟩

/-- The writes of a run are answered as those of its actions are. -/
theorem Action.guarded_answered {k : Kernel} {P : Answer → Prop} {a : Attr}
    {actions : List Action} {s : Session}
    (h : World.Answered P a s.world (runAll k actions s).world) :
    Run.Guarded (Action.run k)
      (fun action s ↦ World.Answered P a s.world (action.run k s).world) actions s := by
  induction actions generalizing s with
  | nil => trivial
  | cons action actions ih =>
      obtain ⟨first, hfirst⟩ := (run_writes k action s).exists_writesTo a
      obtain ⟨rest, hrest⟩ := (runAll_writes k actions (action.run k s)).exists_writesTo a
      rw [runAll_cons, World.answered_iff (by rw [hrest, hfirst, List.append_assoc])] at h
      refine ⟨(World.answered_iff hfirst).mpr fun event hevent ↦ ?_,
        ih ((World.answered_iff hrest).mpr fun event hevent ↦ ?_)⟩
      · exact h event (List.mem_append_left _ hevent)
      · exact h event (List.mem_append_right _ hevent)

/-- What a cache has, and the values that were written behind it. -/
def Session.passedOn (a : Attr) (s : Session) : Option Text × List Text :=
  (s.cached a, (s.world.writesTo a).map WriteEvent.value)

/-- A request that finds the file open is remembered. -/
theorem Served.passedOn {k : Kernel} {a : Attr} {s s' : Session} {request : Option Text}
    (h : Served k a s s' request)
    (hopens : World.Answered (· ≠ .refusedAtOpen) a s.world s'.world) :
    s'.passedOn a = request.elim (s.passedOn a) fun value ↦
      Requests.remember value (s.passedOn a) := by
  cases h with
  | unasked h => simp [Session.passedOn, h.cached, h.writesTo]
  | dropped hcached h => simp [Session.passedOn, Requests.remember, h.cached, h.writesTo, hcached]
  | passed hcached hnext hlog hfile =>
      have hopen := (World.answered_iff hlog).mp hopens _ List.mem_cons_self
      simp [Session.passedOn, Requests.remember, hcached, hnext, hlog, hopen]

theorem Served.answered {k : Kernel} {P : Answer → Prop} {a : Attr} {s s' : Session}
    {request : Option Text} (h : Served k a s s' request)
    (hanswer : ∀ value, P (s.world.answer k a value)) :
    World.Answered P a s.world s'.world := by
  have hsame (hlog : s'.world.writesTo a = s.world.writesTo a) :
      World.Answered P a s.world s'.world :=
    (World.answered_iff (by rw [hlog, List.append_nil])).mpr fun _ hevent ↦ by cases hevent
  cases h with
  | unasked h => exact hsame h.writesTo
  | dropped _ h => exact hsame h.writesTo
  | passed _ _ hlog _ =>
      rw [World.answered_iff hlog]
      intro event hevent
      obtain rfl := List.mem_singleton.mp hevent
      exact hanswer _

/-- The files of a run are there or not there throughout. -/
theorem Action.answered_runAll {k : Kernel} {P : Answer → Prop} {a : Attr} (ha : a.IsCached)
    (actions : List Action) {s : Session} (hpresent : (s.world.files a).isSome = true)
    (hk : ∀ count files value, P (k count files a value)) :
    World.Answered P a s.world (runAll k actions s).world := by
  induction actions generalizing s with
  | nil => exact (World.answered_iff (List.append_nil _).symm).mpr fun _ hevent ↦ by cases hevent
  | cons action actions ih =>
      have hwrites := run_writes k action s
      have hrest := ih ((hwrites.isSome_eq a).trans hpresent)
      have hfirst := (served k ha action s).answered (P := P) fun value ↦ by
        rw [World.answer, if_pos hpresent]
        exact hk _ _ _
      obtain ⟨first, hlog⟩ := hwrites.exists_writesTo a
      obtain ⟨rest, hlog'⟩ := (runAll_writes k actions (action.run k s)).exists_writesTo a
      rw [World.answered_iff hlog] at hfirst
      rw [World.answered_iff hlog'] at hrest
      rw [runAll_cons, World.answered_iff (by rw [hlog', hlog, List.append_assoc])]
      intro event hevent
      rcases List.mem_append.mp hevent with hevent | hevent
      · exact hfirst event hevent
      · exact hrest event hevent

/-- Behind a cache, the values that a run writes are the values it asks for,
without repetitions in succession: one governor for each online core, and a
preference or a scheduler only when it differs from the one before.  The file
of the attribute has to open for each of these writes; the kernel may refuse
them at close. -/
theorem cached_writes_run (k : Kernel) (cores : List CpuCoreInfo) (blocks : BlockLayer)
    (inputs : List TickInput) (w : World) (a : Attr) (ha : a.IsCached) :
    let s := Session.run k blocks inputs ⟨PolicyEngine.new cores, w⟩
    World.Answered (· ≠ .refusedAtOpen) a w s.world →
      (s.world.writesTo a).map WriteEvent.value = (w.writesTo a).map WriteEvent.value ++
        ((initialRequest cores blocks a).toList ++
          inputs.filterMap (TickInput.request cores a)).destutter (· ≠ ·) := by
  intro s hopens
  let start : Session := ⟨PolicyEngine.new cores, w⟩
  have hrun : s = Action.runAll k (runActions cores blocks inputs) start :=
    Action.run_eq k blocks inputs start
  have hguard : Run.Guarded (Action.run k) (fun action s ↦
      World.Answered (· ≠ .refusedAtOpen) a s.world (action.run k s).world)
      (runActions cores blocks inputs) start := by
    apply Action.guarded_answered
    rwa [← hrun]
  have hview := Run.exec_view (Action.run k) (I := fun _ ↦ True) (Session.passedOn a)
    (fun action v ↦ (action.request a).elim v fun value ↦ Requests.remember value v)
    (fun action t _ hanswered ↦ ⟨trivial, (Action.served k ha action t).passedOn hanswered⟩)
    trivial hguard
  have hempty : start.passedOn a = (none, (w.writesTo a).map WriteEvent.value) := by
    cases a <;> rfl
  rw [exec_runActions Requests.remember Requests.remember_remember, hempty] at hview
  calc
    (s.world.writesTo a).map WriteEvent.value = (s.passedOn a).2 := rfl
    _ = _ := by
      rw [hrun, Action.runAll, hview, Requests.exec_remember]

/-- One busy tick between two at rest. -/
def busyTicks : List TickInput :=
  let tick (load : ℚ) : TickInput :=
    { Session.tickAt 40000 with
      load := ⟨load, 0, 0⟩, onlineCores := 1, policyLoad := ⟨load, 0, 0⟩, policyOnlineCores := 1 }
  [tick 0, tick 0, tick 2, tick 0]

theorem cached_writes_run_sample :
    let start : Session := ⟨PolicyEngine.new [Session.sampleCore], ⟨Session.sampleFiles, [], []⟩⟩
    ((start.run .willing Session.noBlocks busyTicks).world.writesTo
        (.energyPerformancePreference 0)).map WriteEvent.value =
      [decimal 200, decimal 0, decimal 200] := by
  intro start
  have hopens := Action.answered_runAll (k := .willing) (P := fun answer ↦ answer ≠ .refusedAtOpen)
    (a := .energyPerformancePreference 0) trivial
    (runActions start.engine.cores Session.noBlocks busyTicks) (s := start) rfl
    fun _ _ _ ↦ by simp [Kernel.willing]
  rw [← Action.run_eq] at hopens
  rw [cached_writes_run .willing [Session.sampleCore] Session.noBlocks busyTicks start.world
    (.energyPerformancePreference 0) trivial hopens]
  decide +kernel

end BetterCpu
