import BetterCpu.IoStorage.DiskStats
import BetterCpu.Library.Arithmetic
import BetterCpu.PolicyEngine.ClosedForms
import BetterCpu.PolicyEngine.Exceptions
import BetterCpu.Sensors.KernelView
import BetterCpu.Topology.OnlineCount

/-!
# From the files of the kernel to the knobs

A tick reads its files with the readers of the sensors.  On the files that the
kernel writes, a run of the engine is its run on the numbers behind them: the
thresholds are comparisons of integers, and no digit and no uninitialized value
makes a difference.  The load of a processor is taken exactly; the quotient of
`double`s compares alike with every threshold that the load is not right at.
-/

namespace BetterCpu

open MemGuard BetterCpu.Topology Text

/-! ## The readers of a tick -/

/-- The files from which a tick takes its readings. -/
structure SystemFiles where
  pressure : Option Text
  loadavg : Option Text
  zones : List ZoneFiles
  cpus : CpuTree
  proc : Option (List ProcEntry)
  sysBlock : List Text
  rotational : Text → Option Text
  diskstats : Option Text

/-- What the memory holds where a reader does not initialize it. -/
structure Leftovers where
  zones : Text → Int64
  policyZones : Text → Int64
  counters : Text → IoStorage.DiskCounters

/-- What a tick reads if the classification finds the files `first` and the
policies find the files `second`. -/
def TickFiles.read (round : Rounding) (leftovers : Leftovers) (first second : SystemFiles) :
    TickFiles where
  pressure := first.pressure
  zones := readThermalZones leftovers.zones first.zones
  load := readLoadAverage round first.loadavg
  cpus := first.cpus
  thermalZones := readThermalZones leftovers.policyZones second.zones
  policyLoad := readLoadAverage round second.loadavg
  policyCpus := second.cpus
  policyPressure := second.pressure
  proc := second.proc
  blocks :=
    { sysBlock := second.sysBlock
      rotational := second.rotational
      diskStats := fun deviceName ↦
        IoStorage.readDiskstats (leftovers.counters deviceName) deviceName second.diskstats }

/-! ## The numbers behind the files -/

namespace IoStorage

def DiskRow.sample (row : DiskRow) : DiskStatsSample where
  deviceName := row.name
  readSectors := row.counters[2]?.getD 0
  writeSectors := row.counters[6]?.getD 0
  readsCompleted := row.counters[0]?.getD 0
  writesCompleted := row.counters[4]?.getD 0
  ioInProgress := row.counters[8]?.getD 0
  ioTimeMs := row.counters[9]?.getD 0

def DiskTable.sample (table : DiskTable) (deviceName : Text) : DiskStatsSample :=
  match table.rows.find? fun row ↦ row.name == deviceName with
  | none => zeroSample deviceName
  | some row => row.sample

theorem DiskRow.Sampled.eq_sample {row : DiskRow} {sample : DiskStatsSample}
    (h : row.Sampled sample) : sample = row.sample := by
  obtain ⟨deviceName, readSectors, writeSectors, readsCompleted, writesCompleted, ioInProgress,
    ioTimeMs⟩ := sample
  obtain ⟨hname, hreads, hreadSectors, hwrites, hwriteSectors, hprogress, htime⟩ := h
  simp_all [DiskRow.sample]

theorem DiskTable.getlines_text (table : DiskTable) :
    getlines '\n' table.text = table.rows.map DiskRow.text := by
  refine getlines_flatMap fun line hline ↦ ?_
  obtain ⟨row, -, rfl⟩ := List.mem_map.mp hline
  exact row.newline_notMem_text

theorem findSome?_readRow (leftover : DiskCounters) (deviceName : Text) (rows : List DiskRow) :
    (rows.map DiskRow.text).findSome? (readRow leftover deviceName) =
      (rows.find? fun row ↦ row.name == deviceName).map fun row ↦
        readCounters leftover ⟨counterFields row.counters, false⟩ := by
  induction rows with
  | nil => rfl
  | cons row rows ih =>
      rw [List.map_cons, List.findSome?_cons, readRow_text, List.find?_cons]
      by_cases hname : row.name = deviceName
      · simp [hname]
      · have hne : (row.name == deviceName) = false := by simpa using hname
        simp only [hname, ne_eq, not_false_eq_true, if_true, hne, ih]

theorem readDiskstats_text (table : DiskTable) (leftover : DiskCounters) (deviceName : Text) :
    readDiskstats leftover deviceName (some table.text) = table.sample deviceName := by
  rw [readDiskstats, Option.bind_some, table.getlines_text, findSome?_readRow, DiskTable.sample]
  cases hfind : table.rows.find? fun row ↦ row.name == deviceName with
  | none => rfl
  | some row =>
      have hname : row.name = deviceName := by simpa using List.find?_some hfind
      rw [← hname]
      exact (row.sampled leftover).eq_sample

end IoStorage

/-- What the kernel shows at one time, in its own units: hundredths of a percent,
of a process and thousandths of a degree. -/
structure KernelState where
  someFirst : Bool
  someLine : PressureLine
  fullLine : PressureLine
  load : KernelLoad
  zones : List KernelZone
  cpus : CpuDirectory
  processes : ProcTable
  sysBlock : List Text
  rotational : Text → Option Text
  disks : IoStorage.DiskTable

namespace KernelState

def files (state : KernelState) : SystemFiles where
  pressure := some (pressureText state.someFirst state.someLine state.fullLine)
  loadavg := some state.load.text
  zones := state.zones.map KernelZone.files
  cpus := state.cpus.tree
  proc := some state.processes.entries
  sysBlock := state.sysBlock
  rotational := state.rotational
  diskstats := some state.disks.text

def pressure (state : KernelState) : MemoryPressure :=
  ⟨state.someLine.avg10 / 100, state.someLine.avg60 / 100, state.someLine.avg300 / 100⟩

def blocks (state : KernelState) : BlockLayer :=
  ⟨state.sysBlock, state.rotational, state.disks.sample⟩

/-- The level of the activity as a comparison of integers. -/
def activityLevel (state : KernelState) : SystemActivityLevel :=
  let online := state.cpus.onlineCount
  if state.zones.any (fun zone ↦ 85000 < zone.temp) || 2000 < state.someLine.avg10 then .heavy
  else if 500 ≤ state.someLine.avg10 || 0 < online && 80 * online < state.load.avg1 then .moderate
  else if 0 < online && 5 * online < state.load.avg1 then .light
  else .idle

/-- The load of one processor as the arithmetic computes it. -/
def loadIn (round : Arithmetic) (state : KernelState) : ℚ :=
  if 0 < state.cpus.onlineCount then
    round (round (state.load.avg1 / 100) / state.cpus.onlineCount)
  else 0

/-- The level of the activity by the comparisons that the code makes. -/
def activityLevelIn (round : Arithmetic) (state : KernelState) : SystemActivityLevel :=
  let avg10 := round (state.someLine.avg10 / 100)
  if state.zones.any (fun zone ↦ 85000 < zone.temp) || round 20 < avg10 then .heavy
  else if round 5 ≤ avg10 || round kHeavyLoadThreshold < state.loadIn round then .moderate
  else if round kIdleLoadThreshold < state.loadIn round then .light
  else .idle

/-- The load of one processor is exactly one of the thresholds. -/
def AtThreshold (state : KernelState) : Prop :=
  0 < state.cpus.onlineCount ∧ ∃ n ∈ [5, 20, 80], state.load.avg1 = n * state.cpus.onlineCount

def heat (state : KernelState) : Throttle.Heat :=
  if state.zones.any fun zone ↦ 85000 < zone.temp then .hot
  else if state.zones.any fun zone ↦ 78000 < zone.temp then .warm
  else .cool

def isRising (state : KernelState) : Bool :=
  500 ≤ state.someLine.avg10 && state.someLine.avg10 ≤ 2000

end KernelState

/-- What a tick finds: the state when it classifies the activity, and the one when
the policies read. -/
structure KernelTick where
  first : KernelState
  second : KernelState

namespace KernelTick

def files (leftovers : Leftovers) (tick : KernelTick) : TickFiles :=
  .read .exact leftovers tick.first.files tick.second.files

/-- The preference that the tick asks for, unless no processor is online. -/
def targetEpp (tick : KernelTick) : Int32 :=
  let online := tick.second.cpus.onlineCount
  if tick.first.activityLevel = .idle then 200
  else if 80 * online < tick.second.load.avg1 then 0
  else if tick.second.load.avg1 < 20 * online then 200
  else 128

/-- The preference by the comparisons that the code makes. -/
def targetEppIn (round : Arithmetic) (tick : KernelTick) : Int32 :=
  if tick.first.activityLevelIn round = .idle then kEppPowerSave
  else if round kHeavyLoadThreshold < tick.second.loadIn round then kEppPerformance
  else if tick.second.loadIn round < round kLightLoadThreshold then kEppPowerSave
  else kEppBalanced

/-- What the tick asks for the preference of a processor. -/
def requestEpp (cores : List CpuCoreInfo) (cpuId : Int32) (tick : KernelTick) : Option Text :=
  if 0 < tick.second.cpus.onlineCount ∧ (onlineIds cores).contains cpuId then
    some (decimalInt tick.targetEpp.toInt)
  else none

/-- Whether the tick has a process terminated. -/
def hasVictim (tick : KernelTick) : Bool :=
  2000 < tick.second.someLine.avg10 && !tick.second.processes.usages.isEmpty

/-- A process of the tick with no smaller memory than any other. -/
def IsLargest (tick : KernelTick) (victim : ProcessMemoryUsage) : Prop :=
  victim ∈ tick.second.processes.usages ∧
    ∀ usage ∈ tick.second.processes.usages, usage.rssKb ≤ victim.rssKb

/-- The readings are the numbers of the kernel; of the largest processes it is
not determined which one comes first. -/
structure Shows (tick : KernelTick) (input : TickInput) : Prop where
  pressure : input.pressure = tick.first.pressure
  zones : input.zones = tick.first.zones.map KernelZone.reading
  load : input.load = tick.first.load.average
  onlineCores : input.onlineCores = tick.first.cpus.onlineCount
  thermalZones : input.thermalZones = tick.second.zones.map KernelZone.reading
  policyLoad : input.policyLoad = tick.second.load.average
  policyOnlineCores : input.policyOnlineCores = tick.second.cpus.onlineCount
  policyPressure : input.policyPressure = tick.second.pressure
  topConsumers : 2000 < tick.second.someLine.avg10 → ∃ sorted,
    Ranking.IsRanking (fun usage ↦ usage.rssKb.toNat) tick.second.processes.usages sorted ∧
      input.topConsumers = sorted.take 1
  blocks : input.blocks = tick.second.blocks

end KernelTick

/-! ## The readings -/

theorem readMemoryPressure_files (state : KernelState) :
    ∃ sample, readMemoryPressure .exact state.files.pressure = .ok sample ∧
      sample.toMemoryPressure = state.pressure :=
  ⟨_, PressureLine.readMemoryPressure_of_someLine (by decide) (by decide)
    (someLine?_pressureText state.someFirst state.someLine state.fullLine), rfl⟩

theorem KernelState.blocks_files (leftovers : Leftovers) (state : KernelState) :
    (⟨state.files.sysBlock, state.files.rotational, fun deviceName ↦
      IoStorage.readDiskstats (leftovers.counters deviceName) deviceName
        state.files.diskstats⟩ : BlockLayer) = state.blocks := by
  simp only [files, blocks, IoStorage.readDiskstats_text]

theorem KernelState.classify_pressure (state : KernelState) :
    classify state.pressure =
      if 2000 < state.someLine.avg10 then .critical
      else if 500 ≤ state.someLine.avg10 then .rising
      else .healthy := by
  have hcritical : (20 : ℚ) < state.someLine.avg10 / 100 ↔ 2000 < state.someLine.avg10 := by
    rw [lt_div_iff₀ (by norm_num)]
    norm_num
  have hrising : (5 : ℚ) ≤ state.someLine.avg10 / 100 ↔ 500 ≤ state.someLine.avg10 := by
    rw [le_div_iff₀ (by norm_num)]
    norm_num
  simp only [classify, pressure, hcritical, hrising]

/-- On the files of the kernel, the readers return what these show. -/
theorem KernelTick.reads_iff (leftovers : Leftovers) (tick : KernelTick) {input : TickInput} :
    (tick.files leftovers).Reads .exact input ↔ tick.Shows input := by
  have hread {state : KernelState} {p : MemoryPressure} :
      (∃ sample, readMemoryPressure .exact state.files.pressure = .ok sample ∧
        p = sample.toMemoryPressure) ↔ p = state.pressure := by
    obtain ⟨sample, hsample, hpressure⟩ := readMemoryPressure_files state
    constructor
    · rintro ⟨sample', hsample', rfl⟩
      rw [hsample] at hsample'
      cases hsample'
      exact hpressure
    · rintro rfl
      exact ⟨sample, hsample, hpressure.symm⟩
  have hcount (state : KernelState) (n : ℕ) :
      onlineCpuCount state.files.cpus = .ok n ↔ n = state.cpus.onlineCount := by
    change onlineCpuCount state.cpus.tree = .ok n ↔ _
    rw [onlineCpuCount_tree, Except.ok.injEq, eq_comm]
  have hcritical : classify tick.second.pressure = .critical ↔
      2000 < tick.second.someLine.avg10 := by
    rw [KernelState.classify_pressure]
    split_ifs with hcritical hrising <;> simp [hcritical]
  have hconsumers {results : List ProcessMemoryUsage} :
      TopMemoryConsumers tick.second.files.proc 1 results ↔ ∃ sorted,
        Ranking.IsRanking (fun usage ↦ usage.rssKb.toNat) tick.second.processes.usages sorted ∧
          results = sorted.take 1 :=
    topMemoryConsumers_iff (by decide)
  have hzones {leftover : Text → Int64} {state : KernelState} :
      readThermalZones leftover state.files.zones = state.zones.map KernelZone.reading :=
    readThermalZones_files leftover state.zones
  have hload {state : KernelState} :
      readLoadAverage .exact state.files.loadavg = state.load.average :=
    readLoadAverage_text state.load
  constructor
  · intro h
    have hpolicyPressure := hread.mp h.policyPressure
    refine ⟨hread.mp h.pressure, h.zones.trans hzones, h.load.trans hload,
      (hcount _ _).mp h.onlineCores, h.thermalZones.trans hzones, h.policyLoad.trans hload,
      (hcount _ _).mp h.policyOnlineCores, hpolicyPressure, fun hlarge ↦ ?_,
      h.blocks.trans (tick.second.blocks_files leftovers)⟩
    rw [← hcritical, ← hpolicyPressure] at hlarge
    exact hconsumers.mp (h.topConsumers hlarge)
  · intro h
    refine ⟨hread.mpr h.pressure, h.zones.trans hzones.symm, h.load.trans hload.symm,
      (hcount _ _).mpr h.onlineCores, h.thermalZones.trans hzones.symm,
      h.policyLoad.trans hload.symm, (hcount _ _).mpr h.policyOnlineCores,
      hread.mpr h.policyPressure, fun hclass ↦ ?_,
      h.blocks.trans (tick.second.blocks_files leftovers).symm⟩
    rw [h.policyPressure, hcritical] at hclass
    exact hconsumers.mpr (h.topConsumers hclass)

/-! ## The thresholds -/

theorem anyAbove_reading (threshold : Int64) (zones : List KernelZone) :
    Session.anyAbove threshold (zones.map KernelZone.reading) =
      zones.any fun zone ↦ threshold < zone.temp := by
  rw [Session.anyAbove, List.any_map]
  rfl

/-- A threshold for the load of one processor, in hundredths. -/
theorem lt_normalizedLoad_iff (load : KernelLoad) {online : ℕ} (honline : 0 < online) (n : ℕ) :
    (n : ℚ) / 100 < Session.normalizedLoad load.average online ↔ n * online < load.avg1 := by
  have hpos : (0 : ℚ) < 100 * online := by
    have hcast : (0 : ℚ) < online := Nat.cast_pos.mpr honline
    linarith
  have hscale : (n : ℚ) / 100 * (100 * online) = n * online := by ring
  rw [Session.normalizedLoad, KernelLoad.average, div_div, lt_div_iff₀ hpos, hscale]
  exact_mod_cast Iff.rfl

theorem normalizedLoad_lt_iff (load : KernelLoad) {online : ℕ} (honline : 0 < online) (n : ℕ) :
    Session.normalizedLoad load.average online < (n : ℚ) / 100 ↔ load.avg1 < n * online := by
  have hpos : (0 : ℚ) < 100 * online := by
    have hcast : (0 : ℚ) < online := Nat.cast_pos.mpr honline
    linarith
  have hscale : (n : ℚ) / 100 * (100 * online) = n * online := by ring
  rw [Session.normalizedLoad, KernelLoad.average, div_div, div_lt_iff₀ hpos, hscale]
  exact_mod_cast Iff.rfl

namespace KernelTick.Shows

variable {tick : KernelTick} {input : TickInput}

theorem activityLevel_eq (h : tick.Shows input) :
    input.activityLevel = tick.first.activityLevel := by
  have hevent : Session.anyAbove kThermalPassiveDefaultMillidegrees input.zones =
      tick.first.zones.any fun zone ↦ 85000 < zone.temp := by
    rw [h.zones, anyAbove_reading]
    rfl
  have hlevel := tick.first.classify_pressure
  rw [← h.pressure] at hlevel
  have hload {threshold : ℚ} (n : ℕ) (hn : threshold = (n : ℚ) / 100) (hpos : 0 ≤ threshold) :
      (threshold < if 0 < input.onlineCores then
        Session.normalizedLoad input.load input.onlineCores else 0) ↔
          0 < tick.first.cpus.onlineCount ∧
            n * tick.first.cpus.onlineCount < tick.first.load.avg1 := by
    rw [h.onlineCores, h.load, hn]
    by_cases honline : 0 < tick.first.cpus.onlineCount
    · rw [if_pos honline, lt_normalizedLoad_iff _ honline, and_iff_right honline]
    · rw [if_neg honline, ← hn]
      exact iff_of_false (not_lt.mpr hpos) fun h ↦ honline h.1
  have heavy : kHeavyLoadThreshold = ((80 : ℕ) : ℚ) / 100 := by norm_num [kHeavyLoadThreshold]
  have idle : kIdleLoadThreshold = ((5 : ℕ) : ℚ) / 100 := by norm_num [kIdleLoadThreshold]
  have hheavy := hload 80 heavy (by norm_num [kHeavyLoadThreshold])
  have hidle := hload 5 idle (by norm_num [kIdleLoadThreshold])
  simp only [TickInput.activityLevel, classifyActivity, KernelState.activityLevel, hevent, hlevel,
    hheavy, hidle]
  by_cases hcritical : 2000 < tick.first.someLine.avg10
  · simp [hcritical]
  · by_cases hrising : 500 ≤ tick.first.someLine.avg10
    · simp [hcritical, hrising]
    · simp [hcritical, hrising]

theorem heat_eq (h : tick.Shows input) :
    Session.heat input.thermalZones = tick.second.heat := by
  rw [Session.heat, h.thermalZones, anyAbove_reading, anyAbove_reading]
  rfl

theorem isRising_eq (h : tick.Shows input) : input.isRising = tick.second.isRising := by
  rw [TickInput.isRising, h.policyPressure, KernelState.classify_pressure, KernelState.isRising]
  split_ifs <;> simp_all

theorem targetEpp_eq (h : tick.Shows input) (honline : 0 < input.policyOnlineCores) :
    Session.targetEpp input.activityLevel
      (Session.normalizedLoad input.policyLoad input.policyOnlineCores) = tick.targetEpp := by
  rw [h.policyOnlineCores] at honline
  have hheavy := lt_normalizedLoad_iff tick.second.load honline 80
  have hlight := normalizedLoad_lt_iff tick.second.load honline 20
  have heavy : ((80 : ℕ) : ℚ) / 100 = kHeavyLoadThreshold := by norm_num [kHeavyLoadThreshold]
  have light : ((20 : ℕ) : ℚ) / 100 = kLightLoadThreshold := by norm_num [kLightLoadThreshold]
  rw [heavy] at hheavy
  rw [light] at hlight
  simp only [Session.targetEpp, KernelTick.targetEpp, h.activityLevel_eq, h.policyOnlineCores,
    h.policyLoad, hheavy, hlight]
  rfl

theorem request_eq (h : tick.Shows input) (cores : List CpuCoreInfo) (cpuId : Int32) :
    input.request cores (.energyPerformancePreference cpuId) = tick.requestEpp cores cpuId := by
  have honline : input.policyOnlineCores ≠ 0 ↔ 0 < tick.second.cpus.onlineCount := by
    rw [h.policyOnlineCores, Nat.pos_iff_ne_zero]
  rw [TickInput.request, requestEpp]
  simp only [honline]
  split
  · next hasks =>
      rw [h.targetEpp_eq (by rw [h.policyOnlineCores]; exact hasks.1)]
  · rfl

end KernelTick.Shows

theorem KernelTick.Shows.victim {tick : KernelTick} {input : TickInput} (h : tick.Shows input) :
    if tick.hasVictim then
      ∃ victim, tick.IsLargest victim ∧ input.victim = some victim.pid
    else input.victim = none := by
  have hclass := tick.second.classify_pressure
  rw [← h.policyPressure] at hclass
  by_cases hcritical : 2000 < tick.second.someLine.avg10
  · obtain ⟨sorted, hranking, htop⟩ := h.topConsumers hcritical
    cases sorted with
    | nil =>
        have hnil : tick.second.processes.usages = [] := hranking.perm.symm.eq_nil
        simp [hasVictim, hnil, TickInput.victim, htop]
    | cons victim sorted =>
        have hmem : victim ∈ tick.second.processes.usages :=
          hranking.perm.mem_iff.mp List.mem_cons_self
        have hsome : tick.hasVictim = true := by
          simp [hasVictim, hcritical, List.ne_nil_of_mem hmem]
        rw [if_pos hsome]
        refine ⟨victim, ⟨hmem, fun usage husage ↦ ?_⟩, ?_⟩
        · exact UInt64.le_iff_toNat_le.mpr (hranking.le_head husage)
        · simp [TickInput.victim, hclass, hcritical, htop]
  · have hnot : input.victim = none := by
      rw [TickInput.victim, hclass, if_neg hcritical]
      split <;> simp
    simpa [hasVictim, hcritical] using hnot

theorem KernelTick.exists_shows (tick : KernelTick) : ∃ input, tick.Shows input := by
  obtain ⟨sorted, hranking⟩ := Ranking.exists_isRanking
    (fun usage : ProcessMemoryUsage ↦ usage.rssKb.toNat) tick.second.processes.usages
  exact ⟨⟨tick.first.pressure, tick.first.zones.map KernelZone.reading, tick.first.load.average,
    tick.first.cpus.onlineCount, tick.second.zones.map KernelZone.reading,
    tick.second.load.average, tick.second.cpus.onlineCount, tick.second.pressure,
    sorted.take 1, tick.second.blocks⟩,
    rfl, rfl, rfl, rfl, rfl, rfl, rfl, rfl, fun _ ↦ ⟨sorted, hranking, rfl⟩, rfl⟩

/-! ## The quotient of `double`s -/

namespace KernelState

variable {state : KernelState}

/-- A load that is not right at a threshold is further from it than the rounding
goes. -/
theorem loadIn_double_iff (honline : 0 < state.cpus.onlineCount) {n : ℕ} (hn : n ≤ 100)
    (hne : state.load.avg1 ≠ n * state.cpus.onlineCount) :
    (Arithmetic.double ((n : ℚ) / 100) < state.loadIn .double ↔
        n * state.cpus.onlineCount < state.load.avg1) ∧
      (state.loadIn .double < Arithmetic.double ((n : ℚ) / 100) ↔
        state.load.avg1 < n * state.cpus.onlineCount) := by
  have hpos : (0 : ℚ) < state.cpus.onlineCount := Nat.cast_pos.mpr honline
  have hthreshold : (n : ℚ) / 100 ≤ 1 := by
    have hcast : (n : ℚ) ≤ 100 := by exact_mod_cast hn
    linarith
  have hcount : (state.cpus.onlineCount : ℚ) ≤ 2 ^ 31 := by
    exact_mod_cast state.cpus.onlineCount_le
  have hquotient : (state.load.avg1 : ℚ) / 100 / state.cpus.onlineCount =
      state.load.avg1 / (100 * state.cpus.onlineCount) := div_div _ _ _
  rw [loadIn, if_pos honline]
  rcases lt_or_gt_of_ne hne with hlt | hgt
  · have hbelow : (state.load.avg1 : ℚ) + 1 ≤ n * state.cpus.onlineCount := by
      exact_mod_cast hlt
    have hdouble := double_div_lt_double (x := state.load.avg1 / 100) (by positivity) hpos
      hthreshold (by
        rw [hquotient, ← le_sub_iff_add_le, div_le_iff₀ (by positivity)]
        nlinarith)
    exact ⟨iff_of_false hdouble.asymm hlt.asymm, iff_of_true hdouble hlt⟩
  · have habove : (n : ℚ) * state.cpus.onlineCount + 1 ≤ state.load.avg1 := by
      exact_mod_cast hgt
    have hdouble := double_lt_double_div (x := state.load.avg1 / 100) hpos (by positivity)
      hthreshold (by
        rw [hquotient, le_div_iff₀ (by positivity)]
        nlinarith)
    exact ⟨iff_of_true hdouble hgt, iff_of_false hdouble.asymm hgt.asymm⟩

/-- Hundredths compare with a percentage in `double`s as they do exactly. -/
theorem double_hundredths_iff (avg10 : ℕ) {n : ℕ} (hn : n ≤ 100) :
    (Arithmetic.double n < Arithmetic.double ((avg10 : ℚ) / 100) ↔ 100 * n < avg10) ∧
      (Arithmetic.double n ≤ Arithmetic.double ((avg10 : ℚ) / 100) ↔ 100 * n ≤ avg10) := by
  have hcast : (n : ℚ) ≤ 100 := by exact_mod_cast hn
  rw [double_natCast (n := n) (by omega)]
  rcases lt_trichotomy avg10 (100 * n) with hlt | rfl | hgt
  · have hbelow : (avg10 : ℚ) + 1 ≤ 100 * n := by exact_mod_cast hlt
    have hdouble : Arithmetic.double ((avg10 : ℚ) / 100) < n := by
      refine (double_le (by positivity)).trans_lt ?_
      linarith
    exact ⟨iff_of_false hdouble.asymm hlt.asymm, iff_of_false hdouble.not_ge hlt.not_ge⟩
  · have hdouble : Arithmetic.double (((100 * n : ℕ) : ℚ) / 100) = n := by
      have hquotient : ((100 * n : ℕ) : ℚ) / 100 = n := by
        push_cast
        ring
      rw [hquotient, double_natCast (by omega)]
    rw [hdouble]
    exact ⟨iff_of_false (lt_irrefl _) (lt_irrefl _), iff_of_true le_rfl le_rfl⟩
  · have habove : 100 * (n : ℚ) + 1 ≤ avg10 := by exact_mod_cast hgt
    have hdouble : (n : ℚ) < Arithmetic.double ((avg10 : ℚ) / 100) := by
      refine lt_of_lt_of_le ?_ (le_double (by positivity))
      linarith
    exact ⟨iff_of_true hdouble hgt, iff_of_true hdouble.le hgt.le⟩

/-- The comparisons with `double`s come out as those of the integers. -/
theorem activityLevelIn_double (h : ¬ state.AtThreshold) :
    state.activityLevelIn .double = state.activityLevel := by
  have hcritical := (double_hundredths_iff state.someLine.avg10 (n := 20) (by decide)).1
  have hrising := (double_hundredths_iff state.someLine.avg10 (n := 5) (by decide)).2
  have hload (threshold : ℚ) (n : ℕ) (hmem : n ∈ [5, 20, 80])
      (hn : threshold = (n : ℚ) / 100) :
      Arithmetic.double threshold < state.loadIn .double ↔
        0 < state.cpus.onlineCount ∧ n * state.cpus.onlineCount < state.load.avg1 := by
    by_cases honline : 0 < state.cpus.onlineCount
    · have hne : state.load.avg1 ≠ n * state.cpus.onlineCount := fun heq ↦
        h ⟨honline, n, hmem, heq⟩
      rw [hn, (loadIn_double_iff honline (by fin_cases hmem <;> decide) hne).1,
        and_iff_right honline]
    · rw [loadIn, if_neg honline, hn]
      refine iff_of_false (not_lt.mpr (double_nonneg (by positivity))) fun h ↦ honline h.1
  have hheavy := hload kHeavyLoadThreshold 80 (by decide) (by norm_num [kHeavyLoadThreshold])
  have hidle := hload kIdleLoadThreshold 5 (by decide) (by norm_num [kIdleLoadThreshold])
  simp only [Nat.cast_ofNat] at hcritical hrising
  simp only [activityLevelIn, activityLevel, hcritical, hrising, hheavy, hidle, Nat.reduceMul]
  simp

end KernelState

theorem KernelTick.targetEppIn_double {tick : KernelTick} (hfirst : ¬ tick.first.AtThreshold)
    (hsecond : ¬ tick.second.AtThreshold) (honline : 0 < tick.second.cpus.onlineCount) :
    tick.targetEppIn .double = tick.targetEpp := by
  have hload (n : ℕ) (hmem : n ∈ [5, 20, 80]) := KernelState.loadIn_double_iff honline (n := n)
    (by fin_cases hmem <;> decide) fun heq ↦ hsecond ⟨honline, n, hmem, heq⟩
  have hheavy := (hload 80 (by decide)).1
  have hlight := (hload 20 (by decide)).2
  have heavy : ((80 : ℕ) : ℚ) / 100 = kHeavyLoadThreshold := by norm_num [kHeavyLoadThreshold]
  have light : ((20 : ℕ) : ℚ) / 100 = kLightLoadThreshold := by norm_num [kLightLoadThreshold]
  rw [heavy] at hheavy
  rw [light] at hlight
  simp only [targetEppIn, targetEpp, KernelState.activityLevelIn_double hfirst, hheavy, hlight]
  rfl

/-! ## Runs -/

section Runs

variable {k : Kernel} {blocks : BlockLayer} {s s' : Session}
variable {ticks : List (Leftovers × KernelTick)}

/-- What the memory holds at a tick, and the files that this finds. -/
def kernelFiles (ticks : List (Leftovers × KernelTick)) : List TickFiles :=
  ticks.map fun tick ↦ tick.2.files tick.1

theorem runsThrough_kernelFiles_iff :
    Session.RunsThrough k .exact blocks (kernelFiles ticks) s s' ↔
      ∃ inputs, List.Forall₂ (fun tick input ↦ tick.2.Shows input) ticks inputs ∧
        s' = s.run k blocks inputs := by
  simp only [Session.RunsThrough, kernelFiles, List.forall₂_map_left_iff, KernelTick.reads_iff]

theorem exists_runsThrough_kernelFiles :
    ∃ s', Session.RunsThrough k .exact blocks (kernelFiles ticks) s s' := by
  have hshows : ∃ inputs, List.Forall₂ (fun tick input ↦ tick.2.Shows input) ticks inputs := by
    induction ticks with
    | nil => exact ⟨[], .nil⟩
    | cons tick ticks ih =>
        obtain ⟨input, hinput⟩ := tick.2.exists_shows
        obtain ⟨inputs, hinputs⟩ := ih
        exact ⟨input :: inputs, .cons hinput hinputs⟩
  obtain ⟨inputs, hinputs⟩ := hshows
  exact ⟨_, runsThrough_kernelFiles_iff.mpr ⟨inputs, hinputs, rfl⟩⟩

theorem map_of_shows {α : Type*} {f : TickInput → α} {g : KernelTick → α}
    (h : ∀ tick input, tick.Shows input → f input = g tick) {inputs : List TickInput}
    (hshows : List.Forall₂ (fun tick input ↦ tick.2.Shows input) ticks inputs) :
    inputs.map f = ticks.map fun tick ↦ g tick.2 := by
  induction hshows with
  | nil => rfl
  | cons hfirst _ ih => rw [List.map_cons, List.map_cons, ih, h _ _ hfirst]

end Runs

/-- The victims of a run are taken from its critical ticks. -/
theorem victims_of_shows {ticks : List (Leftovers × KernelTick)} {inputs : List TickInput}
    (hshows : List.Forall₂ (fun tick input ↦ tick.2.Shows input) ticks inputs) :
    ∃ victims : List ProcessMemoryUsage,
      inputs.filterMap TickInput.victim = victims.map ProcessMemoryUsage.pid ∧
        List.Forall₂ KernelTick.IsLargest
          ((ticks.map Prod.snd).filter KernelTick.hasVictim) victims := by
  induction hshows with
  | nil => exact ⟨[], rfl, .nil⟩
  | @cons tick input ticks inputs h _ ih =>
      obtain ⟨victims, hpids, hlargest⟩ := ih
      have hvictim := h.victim
      rw [List.map_cons, List.filterMap_cons]
      split at hvictim
      · next hsome =>
          obtain ⟨victim, hmem, hpid⟩ := hvictim
          rw [hpid, List.filter_cons_of_pos hsome]
          exact ⟨victim :: victims, by rw [hpids, List.map_cons], .cons hmem hlargest⟩
      · next hnone =>
          rw [hvictim, List.filter_cons_of_neg hnone]
          exact ⟨victims, hpids, hlargest⟩

/-- On the files of the kernel, a run comes to its end, and it is a run on the
numbers behind them, whatever the memory held.  Comparisons of integers decide on
the activity of each tick, and with it on the time to the next one, on the
preferences that it asks for, on how hot the zones are and on whether the dirty
ratio is relieved; each critical tick that shows any process has one of the
largest terminated.  The comparisons of `double`s come out in the same way unless
the load of a processor is right at a threshold. -/
theorem run_on_kernel_files (k : Kernel) (blocks : BlockLayer)
    (ticks : List (Leftovers × KernelTick)) (s : Session) :
    (∃ s', Session.RunsThrough k .exact blocks (kernelFiles ticks) s s') ∧
      (∀ s', Session.RunsThrough k .exact blocks (kernelFiles ticks) s s' →
        ∃ inputs, s' = s.run k blocks inputs ∧
          List.Forall₂ (fun tick input ↦ tick.2.Shows input) ticks inputs ∧
          inputs.map TickInput.activityLevel = ticks.map (fun tick ↦ tick.2.first.activityLevel) ∧
          (∀ cores cpuId,
            inputs.map (TickInput.request cores (.energyPerformancePreference cpuId)) =
              ticks.map fun tick ↦ tick.2.requestEpp cores cpuId) ∧
          inputs.map (fun input ↦ Session.heat input.thermalZones) =
            ticks.map (fun tick ↦ tick.2.second.heat) ∧
          inputs.map TickInput.isRising = ticks.map (fun tick ↦ tick.2.second.isRising) ∧
          ∃ victims : List ProcessMemoryUsage,
            inputs.filterMap TickInput.victim = victims.map ProcessMemoryUsage.pid ∧
              List.Forall₂ KernelTick.IsLargest
                ((ticks.map Prod.snd).filter KernelTick.hasVictim) victims) ∧
      ∀ tick ∈ ticks, ¬ tick.2.first.AtThreshold →
        tick.2.first.activityLevelIn .double = tick.2.first.activityLevel ∧
          (¬ tick.2.second.AtThreshold → 0 < tick.2.second.cpus.onlineCount →
            tick.2.targetEppIn .double = tick.2.targetEpp) := by
  refine ⟨exists_runsThrough_kernelFiles, fun s' hrun ↦ ?_, fun tick _ hfirst ↦
    ⟨KernelState.activityLevelIn_double hfirst, KernelTick.targetEppIn_double hfirst⟩⟩
  obtain ⟨inputs, hshows, hs'⟩ := runsThrough_kernelFiles_iff.mp hrun
  refine ⟨inputs, hs', hshows, ?_, fun cores cpuId ↦ ?_, ?_, ?_, victims_of_shows hshows⟩
  · exact map_of_shows (fun _ _ h ↦ h.activityLevel_eq) hshows
  · exact map_of_shows (fun _ _ h ↦ h.request_eq cores cpuId) hshows
  · exact map_of_shows (fun _ _ h ↦ h.heat_eq) hshows
  · exact map_of_shows (fun _ _ h ↦ h.isRising_eq) hshows

end BetterCpu
