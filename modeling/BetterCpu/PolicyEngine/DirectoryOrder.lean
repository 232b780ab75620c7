import BetterCpu.PolicyEngine.ControlLoops

/-!
# The order of the directories

The cores, the block devices and the thermal zones come in the order in which
their directories are read, and no two readings have to agree on it.  It makes
no difference to what a run leaves.
-/

namespace BetterCpu

/-- The same devices in another order. -/
structure BlockLayer.Reorders (blocks blocks' : BlockLayer) : Prop where
  sysBlock : blocks.sysBlock.Perm blocks'.sysBlock
  rotational : blocks.rotational = blocks'.rotational
  diskStats : blocks.diskStats = blocks'.diskStats

/-- The same readings with the directories in another order.  The consumers of
memory have no part in the attributes. -/
structure TickInput.Reorders (input input' : TickInput) : Prop where
  pressure : input.pressure = input'.pressure
  zones : input.zones.Perm input'.zones
  load : input.load = input'.load
  onlineCores : input.onlineCores = input'.onlineCores
  thermalZones : input.thermalZones.Perm input'.thermalZones
  policyLoad : input.policyLoad = input'.policyLoad
  policyOnlineCores : input.policyOnlineCores = input'.policyOnlineCores
  policyPressure : input.policyPressure = input'.policyPressure
  blocks : input.blocks.Reorders input'.blocks

/-! ## What the loops depend on -/

theorem onlineIds_perm {cores cores' : List CpuCoreInfo} (h : cores.Perm cores') :
    (onlineIds cores).Perm (onlineIds cores') :=
  (h.filter _).map _

theorem anyAbove_perm {readings readings' : List ThermalZoneReading}
    (h : readings.Perm readings') (threshold : Int64) :
    Session.anyAbove threshold readings = Session.anyAbove threshold readings' := by
  rw [Session.anyAbove, Session.anyAbove, Bool.eq_iff_iff, List.any_eq_true, List.any_eq_true]
  simp only [h.mem_iff]

theorem heat_perm {readings readings' : List ThermalZoneReading} (h : readings.Perm readings') :
    Session.heat readings = Session.heat readings' := by
  rw [Session.heat, Session.heat, anyAbove_perm h, anyAbove_perm h]

theorem BlockLayer.Reorders.listBlockDevices {blocks blocks' : BlockLayer}
    (h : blocks.Reorders blocks') :
    (IoStorage.listBlockDevices blocks.sysBlock).Perm
      (IoStorage.listBlockDevices blocks'.sysBlock) :=
  h.sysBlock.filter _

theorem BlockLayer.Reorders.nvmeDevices {blocks blocks' : BlockLayer}
    (h : blocks.Reorders blocks') : (nvmeDevices blocks).Perm (nvmeDevices blocks') := by
  rw [BetterCpu.nvmeDevices, BetterCpu.nvmeDevices, h.rotational]
  exact h.listBlockDevices.filter _

namespace TickInput.Reorders

variable {input input' : TickInput} (h : input.Reorders input')

include h

theorem activityLevel_eq : input.activityLevel = input'.activityLevel := by
  rw [TickInput.activityLevel, TickInput.activityLevel, anyAbove_perm h.zones, h.pressure, h.load,
    h.onlineCores]

theorem isRising_eq : input.isRising = input'.isRising := by
  rw [TickInput.isRising, TickInput.isRising, h.policyPressure]

theorem setsLatency_eq (deviceName : Text) :
    input.setsLatency deviceName = input'.setsLatency deviceName := by
  rw [TickInput.setsLatency, TickInput.setsLatency, h.activityLevel_eq,
    h.blocks.nvmeDevices.contains_eq, h.blocks.diskStats]

/-- Each loop makes the same move. -/
theorem next_eq {cores cores' : List CpuCoreInfo} (hcores : cores.Perm cores')
    (blocks blocks' : BlockLayer) (start : Sysfs) (a : Attr) :
    (a.loop cores blocks start).next input = (a.loop cores' blocks' start).next input' := by
  have hids := onlineIds_perm hcores
  cases a with
  | scalingGovernor cpuId => rfl
  | scalingMaxFreq cpuId =>
      simp only [Attr.loop, heat_perm h.thermalZones, hids.count_eq]
  | energyPerformancePreference cpuId =>
      simp only [Attr.loop, h.policyOnlineCores, h.policyLoad, h.activityLevel_eq,
        hids.contains_eq]
  | vfsCachePressure => simp only [Attr.loop, ControlLoop.counting, h.isRising_eq]
  | dirtyRatio => simp only [Attr.loop, ControlLoop.counting, h.isRising_eq]
  | queueScheduler deviceName =>
      simp only [Attr.loop, h.activityLevel_eq, h.blocks.nvmeDevices.contains_eq,
        h.blocks.diskStats]
  | readLatNsec deviceName => simp only [Attr.loop, h.setsLatency_eq]
  | writeLatNsec deviceName => simp only [Attr.loop, h.setsLatency_eq]
  | scalingMinFreq cpuId => rfl
  | swappiness => rfl
  | dirtyBackgroundRatio => rfl

end TickInput.Reorders

theorem initial_loop_eq {cores cores' : List CpuCoreInfo} (hcores : cores.Perm cores')
    {blocks blocks' : BlockLayer} (hblocks : blocks.Reorders blocks') (start : Sysfs) (a : Attr) :
    (a.loop cores blocks start).initial = (a.loop cores' blocks' start).initial := by
  have hids := onlineIds_perm hcores
  cases a with
  | scalingGovernor cpuId => simp only [Attr.loop, hids.contains_eq]
  | queueScheduler deviceName =>
      simp only [Attr.loop, hblocks.listBlockDevices.contains_eq, hblocks.rotational]
  | _ => rfl

/-- Whatever the orders are in which the directories of the cores, the block
devices and the thermal zones are read, at the start and at each tick, the pauses
between the ticks are the same, and so is the value that the run leaves to each attribute
if its writes are accepted, and those of what is opened together with it, even if
the kernel answers the others in another way. -/
theorem value_run_reorders (k k' : Kernel) {cores cores' : List CpuCoreInfo}
    (hcores : cores.Perm cores') {blocks blocks' : BlockLayer} (hblocks : blocks.Reorders blocks')
    {inputs inputs' : List TickInput} (hinputs : List.Forall₂ TickInput.Reorders inputs inputs')
    (w : World) :
    inputs.map TickInput.sleepMs = inputs'.map TickInput.sleepMs ∧
      ∀ a : Attr,
        (∀ b ∈ a.openedWith, ∀ count files value, k count files b value = .accepted ∧
          k' count files b value = .accepted) →
        (Session.run k blocks inputs ⟨PolicyEngine.new cores, w⟩).world.files.value a =
          (Session.run k' blocks' inputs' ⟨PolicyEngine.new cores', w⟩).world.files.value a := by
  constructor
  · induction hinputs with
    | nil => rfl
    | cons hfirst _ ih =>
        rw [List.map_cons, List.map_cons, ih, TickInput.sleepMs, hfirst.activityLevel_eq,
          TickInput.sleepMs]
  · intro a hk
    rw [Action.run_eq, Action.run_eq]
    cases hfile : w.files a with
    | none => rw [value_runAll_of_absent _ hfile, value_runAll_of_absent _ hfile]
    | some text =>
        have hpresent : (w.files a).isSome = true := by
          rw [hfile]
          rfl
        have hloop : (a.loop cores blocks w.files).after inputs =
            (a.loop cores' blocks' w.files).after inputs' := by
          funext r
          refine ControlLoop.after_congr (initial_loop_eq hcores hblocks w.files a) ?_ r
          exact hinputs.imp fun _ _ h ↦ h.next_eq hcores blocks blocks' w.files a
        calc
          _ = (w.files.value a).map ((a.loop cores blocks w.files).after inputs) :=
            value_runAll_of_present inputs (fun b hb n f v ↦ (hk b hb n f v).1) hpresent
          _ = (w.files.value a).map ((a.loop cores' blocks' w.files).after inputs') := by
            rw [hloop]
          _ = _ :=
            (value_runAll_of_present inputs' (fun b hb n f v ↦ (hk b hb n f v).2) hpresent).symm

def secondCore : CpuCoreInfo := ⟨1, 1, 0, 1024, true, false⟩

def hotReadings : List ThermalZoneReading := [⟨[], [], 70000⟩, ⟨[], [], 90000⟩]

/-- The hot zone is read first by one run and last by the other. -/
theorem value_run_reorders_sample :
    let tick := { Session.tickAt 0 with thermalZones := hotReadings }
    let tick' := { Session.tickAt 0 with thermalZones := hotReadings.reverse }
    let w : World := ⟨Session.sampleFiles, [], []⟩
    (Session.run .willing Session.noBlocks [tick]
        ⟨PolicyEngine.new [Session.sampleCore, secondCore], w⟩).world.files.value
          (.scalingMaxFreq 0) =
      (Session.run .willing Session.noBlocks [tick']
        ⟨PolicyEngine.new [secondCore, Session.sampleCore], w⟩).world.files.value
          (.scalingMaxFreq 0) := by
  intro tick tick' w
  have hblocks (blocks : BlockLayer) : blocks.Reorders blocks := ⟨.refl _, rfl, rfl⟩
  have hticks : tick.Reorders tick' :=
    ⟨rfl, .refl _, rfl, rfl, (List.reverse_perm hotReadings).symm, rfl, rfl, rfl, hblocks _⟩
  exact (value_run_reorders .willing .willing (.swap secondCore Session.sampleCore [])
    (hblocks Session.noBlocks) (.cons hticks .nil) w).2 (.scalingMaxFreq 0)
    fun _ _ _ _ _ ↦ ⟨rfl, rfl⟩

end BetterCpu
