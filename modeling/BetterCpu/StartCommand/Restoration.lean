import BetterCpu.PolicyEngine.Cache
import BetterCpu.StartCommand
import BetterCpu.StateBackup.RoundTrip

/-!
# End-to-end restoration

The restore block writes the minimum frequency of a core before its maximum.
The order is safe because the engine never writes a minimum: when the maximum
is written back, the minimum is the captured one.
-/

namespace BetterCpu

open Text

/-! ## What the restore block relies on -/

/-- An entry is a value that the attribute has in `orig`, if it is there. -/
def Sysfs.Agrees (orig : Sysfs) (entry : Attr × Text) : Prop :=
  (orig entry.1).isSome = true → orig.Holds entry.1 entry.2

/-- Whether a write would leave a core with its minimum above its maximum. -/
def Sysfs.Inverts (files : Sysfs) : Attr → Text → Prop
  | .scalingMinFreq cpuId, value =>
      Governor.currentMaxFreqKhz files cpuId < shownKhz value
  | .scalingMaxFreq cpuId, value =>
      shownKhz value < Governor.currentMinFreqKhz files cpuId
  | _, _ => False
where
  shownKhz (value : Text) : UInt64 := ((IStream.ofText (value ++ ['\n'])).uint64 0).1

/-- The kernel takes back any value that an attribute had, unless it would
invert the limits of a core. -/
def Kernel.Readmits (k : Kernel) (orig : Sysfs) : Prop :=
  ∀ count files a value, orig.Holds a value → ¬ files.Inverts a value →
    k count files a value = .accepted

theorem Kernel.willing_readmits (orig : Sysfs) : Kernel.willing.Readmits orig :=
  fun _ _ _ _ _ _ ↦ rfl

/-! ## Writing entries back -/

/-- The files are the ones of `orig`, and no minimum frequency has changed. -/
structure Restorable (orig : Sysfs) (w : World) : Prop where
  isSome_eq : ∀ a, (w.files a).isSome = (orig a).isSome
  minFreq : ∀ cpuId, w.files.value (.scalingMinFreq cpuId) = orig.value (.scalingMinFreq cpuId)

theorem value_writeValue_of_agrees {k : Kernel} {orig : Sysfs} {entry : Attr × Text}
    (hentry : orig.Agrees entry) {w : World} (hsome : ∀ a, (w.files a).isSome = (orig a).isSome)
    {b : Attr} (hb : w.files.value b = orig.value b) :
    (w.writeValue k entry.1 entry.2).2.files.value b = orig.value b := by
  obtain ⟨a, value⟩ := entry
  rcases w.writeValue_files_cases k a value with hfiles | ⟨-, hpresent, hfiles⟩
  · rwa [hfiles]
  · by_cases hab : b = a
    · subst hab
      have hholds : orig.Holds b value := hentry (by rwa [← hsome])
      rw [hfiles, hholds]
      simp [Sysfs.value]
    · rwa [World.value_writeValue_of_ne k value w hab]

theorem Restorable.writeValue {k : Kernel} {orig : Sysfs} {entry : Attr × Text}
    (hentry : orig.Agrees entry) {w : World} (hw : Restorable orig w) :
    Restorable orig (w.writeValue k entry.1 entry.2).2 where
  isSome_eq a := (World.isSome_writeValue_files k entry.1 a entry.2 w).trans (hw.isSome_eq a)
  minFreq cpuId := value_writeValue_of_agrees hentry hw.isSome_eq (hw.minFreq cpuId)

theorem Restorable.writeBack_entries {k : Kernel} {orig : Sysfs} {entries : List (Attr × Text)}
    (hentries : ∀ entry ∈ entries, orig.Agrees entry) {w : World} (hw : Restorable orig w) :
    Restorable orig (writeBack k entries w) := by
  induction entries generalizing w with
  | nil => exact hw
  | cons entry entries ih =>
      exact ih (fun e he ↦ hentries e (by simp [he])) (hw.writeValue (hentries entry (by simp)))

theorem Restorable.not_inverts {orig : Sysfs} {w : World} (hw : Restorable orig w)
    {cpuId : Int32} {value : Text} (hholds : orig.Holds (.scalingMaxFreq cpuId) value)
    (horder : Governor.currentMinFreqKhz orig cpuId ≤ Governor.currentMaxFreqKhz orig cpuId) :
    ¬ w.files.Inverts (.scalingMaxFreq cpuId) value := by
  have hmin := Sysfs.currentMinFreqKhz_congr (hw.minFreq cpuId)
  have hmax : Governor.currentMaxFreqKhz orig cpuId = Sysfs.Inverts.shownKhz value := by
    obtain ⟨t, ht, hreading⟩ := Option.map_eq_some_iff.mp hholds
    exact (Sysfs.currentMaxFreqKhz_eq_iff (by simp [ht])).mpr hholds
  rw [Sysfs.Inverts, hmin, ← hmax]
  exact not_lt.mpr horder

/-- An accepted write of an entry brings its attribute back. -/
theorem value_writeValue_of_accepted {k : Kernel} {orig : Sysfs} {entry : Attr × Text}
    (hentry : orig.Agrees entry) (hvalue : (orig entry.1).isSome = true → entry.2 ≠ [])
    {w : World} (hsome : ∀ a, (w.files a).isSome = (orig a).isSome)
    (haccepted : (orig entry.1).isSome = true → w.answer k entry.1 entry.2 = .accepted) :
    (w.writeValue k entry.1 entry.2).2.files.value entry.1 = orig.value entry.1 := by
  obtain ⟨a, value⟩ := entry
  by_cases hpresent : (orig a).isSome = true
  · have hfile : (w.writeValue k a value).2.files a = some (a.shown value) := by
      simp only [World.writeValue, haccepted hpresent]
      exact World.flush_files_self (hvalue hpresent)
    rw [hentry hpresent, Sysfs.value, hfile, Option.map_some]
  · have habsent : orig a = none := by simpa using hpresent
    have habsent' : (w.writeValue k a value).2.files a = none := by
      have := (World.isSome_writeValue_files k a a value w).trans (hsome a)
      simpa [habsent] using this
    simp only [Sysfs.value, habsent, habsent']

theorem Restorable.value_writeValue {k : Kernel} {orig : Sysfs} (hk : k.Readmits orig)
    {entry : Attr × Text} (hentry : orig.Agrees entry) (hvalue : entry.2 ≠ [])
    (horder : ∀ cpuId, entry.1 = .scalingMaxFreq cpuId →
      Governor.currentMinFreqKhz orig cpuId ≤ Governor.currentMaxFreqKhz orig cpuId)
    {w : World} (hw : Restorable orig w) :
    (w.writeValue k entry.1 entry.2).2.files.value entry.1 = orig.value entry.1 := by
  by_cases hmin : ∃ cpuId, entry.1 = .scalingMinFreq cpuId
  · obtain ⟨cpuId, hcpu⟩ := hmin
    exact value_writeValue_of_agrees hentry hw.isSome_eq (hcpu ▸ hw.minFreq cpuId)
  · refine value_writeValue_of_accepted hentry (fun _ ↦ hvalue) hw.isSome_eq fun hpresent ↦ ?_
    obtain ⟨a, value⟩ := entry
    have hholds : orig.Holds a value := hentry hpresent
    have hinverts : ¬ w.files.Inverts a value := by
      cases a with
      | scalingMinFreq cpuId => exact absurd ⟨cpuId, rfl⟩ hmin
      | scalingMaxFreq cpuId => exact hw.not_inverts hholds (horder cpuId rfl)
      | _ => exact id
    simp only [World.answer, hw.isSome_eq, hpresent, if_true]
    exact hk _ _ _ _ hholds hinverts

theorem Restorable.value_writeBack {k : Kernel} {orig : Sysfs} (hk : k.Readmits orig)
    {entries : List (Attr × Text)} (hentries : ∀ entry ∈ entries, orig.Agrees entry)
    (hvalues : ∀ entry ∈ entries, entry.2 ≠ [])
    (horder : ∀ cpuId, .scalingMaxFreq cpuId ∈ entries.map Prod.fst →
      Governor.currentMinFreqKhz orig cpuId ≤ Governor.currentMaxFreqKhz orig cpuId)
    {w : World} (hw : Restorable orig w) {a : Attr}
    (ha : a ∈ entries.map Prod.fst ∨ w.files.value a = orig.value a) :
    (writeBack k entries w).files.value a = orig.value a := by
  induction entries generalizing w with
  | nil => simpa using ha
  | cons entry entries ih =>
      have hentry := hentries entry (by simp)
      rw [writeBack_cons]
      refine ih (fun e he ↦ hentries e (by simp [he])) (fun e he ↦ hvalues e (by simp [he]))
        (fun cpuId hmem ↦ horder cpuId (by simp_all)) (hw.writeValue hentry) ?_
      by_cases hself : a = entry.1
      · subst hself
        exact Or.inr (hw.value_writeValue hk hentry (hvalues entry (by simp))
          fun cpuId h ↦ horder cpuId (by simp [h]))
      · rcases ha with ha | ha
        · exact Or.inl (by simpa [hself] using ha)
        · exact Or.inr (value_writeValue_of_agrees hentry hw.isSome_eq ha)

/-! ## The entries of a capture -/

/-- What the machine must be like for its capture to hold all its values. -/
structure Machine.Capturable (m : Machine) (files : Sysfs) : Prop where
  governor : ∀ cpuId ∈ m.cpuIds, Governor.currentGovernor files cpuId ≠ []
  scheduler : ∀ device ∈ m.devices, IoStorage.currentScheduler files device ≠ []
  epp : ∀ cpuId ∈ m.cpuIds, files (.energyPerformancePreference cpuId) = none ∨
    (Governor.currentEpp files cpuId).isSome = true

/-- What an entry of the capture can be. -/
inductive Captured (m : Machine) (files : Sysfs) : Attr × Text → Prop
  | governor (cpuId : Int32) (hcpu : cpuId ∈ m.cpuIds) :
      Captured m files (.scalingGovernor cpuId, Governor.currentGovernor files cpuId)
  | minFreq (cpuId : Int32) : Captured m files
      (.scalingMinFreq cpuId, decimal (Governor.currentMinFreqKhz files cpuId).toNat)
  | maxFreq (cpuId : Int32) : Captured m files
      (.scalingMaxFreq cpuId, decimal (Governor.currentMaxFreqKhz files cpuId).toNat)
  | epp (cpuId epp : Int32) (hepp : Governor.currentEpp files cpuId = some epp) :
      Captured m files (.energyPerformancePreference cpuId, decimalInt epp.toInt)
  | swappiness :
      Captured m files (.swappiness, decimalInt (MemGuard.readSwappiness files).toInt)
  | vfsCachePressure :
      Captured m files (.vfsCachePressure, decimalInt (MemGuard.readVfsCachePressure files).toInt)
  | dirtyRatio :
      Captured m files (.dirtyRatio, decimalInt (IoStorage.readDirtyRatio files).toInt)
  | dirtyBackgroundRatio : Captured m files
      (.dirtyBackgroundRatio, decimalInt (IoStorage.readDirtyBackgroundRatio files).toInt)
  | scheduler (device : Text) (hdevice : device ∈ m.devices) :
      Captured m files (.queueScheduler device, IoStorage.currentScheduler files device)

theorem captured_of_mem_entries {m : Machine} {files : Sysfs} {entry : Attr × Text}
    (hentry : entry ∈ (captureCurrentState m files).entries) : Captured m files entry := by
  simp only [SystemStateBackup.entries, captureCurrentState, List.mem_append, List.mem_flatMap,
    List.mem_map, List.mem_cons, exists_exists_and_eq_and] at hentry
  rcases hentry with ⟨cpuId, hcpu, hentry⟩ | rfl | rfl | rfl | rfl | ⟨device, hdevice, rfl⟩
  · simp only [CpuFreqState.entries, Governor.snapshot, List.mem_cons, List.mem_map,
      Option.mem_toList] at hentry
    rcases hentry with rfl | rfl | rfl | ⟨epp, hepp, rfl⟩
    · exact .governor cpuId hcpu
    · exact .minFreq cpuId
    · exact .maxFreq cpuId
    · exact .epp cpuId epp hepp
  · exact .swappiness
  · exact .vfsCachePressure
  · exact .dirtyRatio
  · exact .dirtyBackgroundRatio
  · exact .scheduler device hdevice

theorem agrees_of_mem_entries {m : Machine} {files : Sysfs}
    (hgovernor : ∀ cpuId ∈ m.cpuIds, Governor.currentGovernor files cpuId ≠ [])
    {entry : Attr × Text} (hentry : entry ∈ (captureCurrentState m files).entries) :
    files.Agrees entry := by
  intro hpresent
  cases captured_of_mem_entries hentry with
  | governor cpuId hcpu => exact holds_governor hpresent (hgovernor cpuId hcpu)
  | minFreq cpuId => exact holds_minFreq hpresent
  | maxFreq cpuId => exact holds_maxFreq hpresent
  | epp cpuId epp hepp => exact holds_epp_iff.mpr hepp
  | swappiness => exact holds_readInt 60 (fun _ ↦ rfl) (fun _ ↦ rfl) hpresent
  | vfsCachePressure => exact holds_readInt 100 (fun _ ↦ rfl) (fun _ ↦ rfl) hpresent
  | dirtyRatio => exact holds_readInt 0 (fun _ ↦ rfl) (fun _ ↦ rfl) hpresent
  | dirtyBackgroundRatio => exact holds_readInt 0 (fun _ ↦ rfl) (fun _ ↦ rfl) hpresent
  | scheduler device hdevice => exact holds_scheduler hpresent

theorem ne_nil_of_mem_entries {m : Machine} {files : Sysfs}
    (hgovernor : ∀ cpuId ∈ m.cpuIds, Governor.currentGovernor files cpuId ≠ [])
    {entry : Attr × Text} (hentry : entry ∈ (captureCurrentState m files).entries)
    (hscheduler : ∀ device ∈ m.devices, entry.1 = .queueScheduler device →
      IoStorage.currentScheduler files device ≠ []) : entry.2 ≠ [] := by
  cases captured_of_mem_entries hentry with
  | governor cpuId hcpu => exact hgovernor cpuId hcpu
  | minFreq cpuId => exact decimal_ne_nil _
  | maxFreq cpuId => exact decimal_ne_nil _
  | scheduler device hdevice => exact hscheduler device hdevice rfl
  | _ => exact (isWord_decimalInt _).1

theorem map_fst_entries (m : Machine) (files : Sysfs) :
    (captureCurrentState m files).entries.map Prod.fst =
      m.cpuIds.flatMap (fun cpuId ↦ .scalingGovernor cpuId :: .scalingMinFreq cpuId ::
          .scalingMaxFreq cpuId :: ((Governor.currentEpp files cpuId).toList.map fun _ ↦
            .energyPerformancePreference cpuId)) ++
        (.swappiness :: .vfsCachePressure :: .dirtyRatio :: .dirtyBackgroundRatio ::
          m.devices.map .queueScheduler) := by
  simp only [SystemStateBackup.entries, captureCurrentState, CpuFreqState.entries,
    Governor.snapshot, List.map_append, List.map_flatMap, List.flatMap_map, List.map_cons,
    List.map_map, Function.comp_def]

theorem mem_entries_iff {m : Machine} {files : Sysfs} {a : Attr} :
    a ∈ (captureCurrentState m files).entries.map Prod.fst ↔
      a ∈ m.knobs ∧ ∀ cpuId, a = .energyPerformancePreference cpuId →
        (Governor.currentEpp files cpuId).isSome = true := by
  rw [map_fst_entries]
  cases a <;> simp [Machine.knobs, Option.isSome_iff_ne_none, and_comm]

theorem maxFreq_mem_knobs_iff {m : Machine} {cpuId : Int32} :
    .scalingMaxFreq cpuId ∈ m.knobs ↔ cpuId ∈ m.cpuIds := by
  simp [Machine.knobs]

theorem epp_mem_knobs_iff {m : Machine} {cpuId : Int32} :
    .energyPerformancePreference cpuId ∈ m.knobs ↔ cpuId ∈ m.cpuIds := by
  simp [Machine.knobs]

theorem mem_entries_of_mem_knobs {m : Machine} {files : Sysfs} (hm : m.Capturable files)
    {a : Attr} (ha : a ∈ m.knobs) :
    a ∈ (captureCurrentState m files).entries.map Prod.fst ∨ files a = none := by
  by_cases habsent : files a = none
  · exact Or.inr habsent
  · refine Or.inl (mem_entries_iff.mpr ⟨ha, ?_⟩)
    rintro cpuId rfl
    exact (hm.epp cpuId (epp_mem_knobs_iff.mp ha)).resolve_left habsent

theorem captureCurrentState_wellFormed (m : Machine) (files : Sysfs) :
    (captureCurrentState m files).WellFormed where
  governors := by
    simp only [captureCurrentState, List.forall_mem_map]
    exact fun cpuId _ ↦ Governor.spaceless_currentGovernor files cpuId
  schedulers := by
    simp only [captureCurrentState, List.forall_mem_map]
    exact fun device _ ↦ IoStorage.spaceless_currentScheduler files device
  devices := by
    simp only [captureCurrentState, List.forall_mem_map]
    exact fun device hdevice ↦ m.isWord_of_mem_devices hdevice
  cpuCount := by simpa [captureCurrentState] using m.length_cpuIds
  ioCount := by simpa [captureCurrentState] using m.length_devices

theorem captureCurrentState_decodable {m : Machine} {files : Sysfs}
    (hgovernor : ∀ cpuId ∈ m.cpuIds, Governor.currentGovernor files cpuId ≠ [])
    (hscheduler : ∀ device ∈ m.devices, IoStorage.currentScheduler files device ≠ []) :
    (captureCurrentState m files).Decodable := by
  constructor
  · simpa [captureCurrentState, Governor.snapshot] using hgovernor
  · intro entry hentry
    obtain ⟨device, hdevice, rfl⟩ := List.mem_map.mp (List.dropLast_subset _ hentry)
    exact hscheduler device hdevice

theorem governor_ne_nil_of_decodable {m : Machine} {files : Sysfs}
    (h : (captureCurrentState m files).Decodable) :
    ∀ cpuId ∈ m.cpuIds, Governor.currentGovernor files cpuId ≠ [] := by
  simpa [captureCurrentState, Governor.snapshot] using h.1

theorem Machine.Capturable.decodable {m : Machine} {files : Sysfs} (hm : m.Capturable files) :
    (captureCurrentState m files).Decodable :=
  captureCurrentState_decodable hm.governor hm.scheduler

theorem Machine.Capturable.load_save {m : Machine} {files : Sysfs} (hm : m.Capturable files) :
    StateBackup.load (some (StateBackup.save (captureCurrentState m files))) =
      .ok (some (captureCurrentState m files)) :=
  (StateBackup.load_save_eq_iff _ (captureCurrentState_wellFormed m files)).mpr hm.decodable

/-- From any state in which no file has come or gone and no minimum has
changed, the restore block brings every captured attribute back. -/
theorem value_restoreBlock {k : Kernel} {m : Machine} {orig : Sysfs} (hm : m.Capturable orig)
    (horder : ∀ cpuId ∈ m.cpuIds,
      Governor.currentMinFreqKhz orig cpuId ≤ Governor.currentMaxFreqKhz orig cpuId)
    (hk : k.Readmits orig) {w : World} (hw : Restorable orig w) {a : Attr} (ha : a ∈ m.knobs) :
    (restoreBlock k (some (captureCurrentState m orig)) w).files.value a = orig.value a := by
  rw [restoreBlock_eq]
  refine hw.value_writeBack hk (fun entry hentry ↦ agrees_of_mem_entries hm.governor hentry)
    (fun entry hentry ↦ ne_nil_of_mem_entries hm.governor hentry
      fun device hdevice _ ↦ hm.scheduler device hdevice)
    (fun cpuId hmem ↦ horder cpuId (maxFreq_mem_knobs_iff.mp (mem_entries_iff.mp hmem).1)) ?_
  apply (mem_entries_of_mem_knobs hm ha).imp id
  intro habsent
  have hsome := hw.isSome_eq a
  simp only [habsent, Option.isSome_none, Option.isSome_eq_false_iff, Option.isNone_iff_eq_none]
    at hsome
  simp only [Sysfs.value, hsome, habsent]

/-! ## The engine in between -/

theorem Action.minFreq_notMem_targets (action : Action) (cpuId : Int32) :
    .scalingMinFreq cpuId ∉ action.targets := by
  intro h
  cases mayWrite_of_mem_targets h

theorem Restorable.runAll {k : Kernel} {orig : Sysfs} {s : Session}
    (hs : Restorable orig s.world) (actions : List Action) :
    Restorable orig (Action.runAll k actions s).world := by
  have hwrites := Action.runAll_writes k actions s
  refine ⟨fun a ↦ (hwrites.isSome_eq a).trans (hs.isSome_eq a), fun cpuId ↦ ?_⟩
  have hframe := hwrites.frame (.scalingMinFreq cpuId) (by
    simp [Action.minFreq_notMem_targets])
  exact (Sysfs.value_congr hframe).trans (hs.minFreq cpuId)

theorem restorable_refl (w : World) : Restorable w.files w :=
  ⟨fun _ ↦ rfl, fun _ ↦ rfl⟩

/-! ## The whole command -/

/-- Whatever the sensors read, however many ticks there are and whichever of
their writes the kernel refuses, the machine ends with the values it had at
the capture. -/
theorem startCommand_restores (kTune kRestore : Kernel) (m : Machine) (blocks : BlockLayer)
    (inputs : List TickInput) (w : World) (hm : m.Capturable w.files)
    (horder : ∀ cpuId ∈ m.cpuIds,
      Governor.currentMinFreqKhz w.files cpuId ≤ Governor.currentMaxFreqKhz w.files cpuId)
    (hrestore : kRestore.Readmits w.files) :
    ∃ w', startCommand kTune kRestore m blocks inputs w = .ok w' ∧
      ∀ a ∈ m.knobs, w'.files.value a = w.files.value a := by
  refine ⟨_, by rw [startCommand, hm.load_save]; rfl, fun a ha ↦ ?_⟩
  refine value_restoreBlock hm horder hrestore ?_ ha
  rw [Action.run_eq]
  exact (restorable_refl w).runAll _

def sampleMachine : Machine where
  cores := [Session.sampleCore]
  sysBlock := [['s', 'd', 'a']]
  isWord_of_mem_sysBlock := by decide
  length_cores := by decide
  length_sysBlock := by decide

def sampleTick : TickInput where
  pressure := ⟨0, 0, 0⟩
  zones := [⟨[], [], 90000⟩]
  load := ⟨1, 1, 1⟩
  onlineCores := 1
  thermalZones := [⟨[], [], 90000⟩]
  policyLoad := ⟨1, 1, 1⟩
  policyOnlineCores := 1
  policyPressure := ⟨6, 0, 0⟩
  topConsumers := []
  blocks := ⟨[['s', 'd', 'a']], fun _ ↦ some ['1', '\n'], fun d ↦ ⟨d, 0, 0, 0, 0, 0, 0⟩⟩

theorem sampleMachine_capturable : sampleMachine.Capturable Session.sampleFiles where
  governor := List.forall_mem_singleton.mpr (by decide)
  scheduler := List.forall_mem_singleton.mpr (by decide)
  epp := List.forall_mem_singleton.mpr (by decide)

theorem startCommand_restores_sample :
    ∃ w', startCommand Session.withoutSchedutil Kernel.willing sampleMachine sampleTick.blocks
        [sampleTick] ⟨Session.sampleFiles, [], []⟩ = .ok w' ∧
      ∀ a ∈ sampleMachine.knobs, w'.files.value a = Session.sampleFiles.value a :=
  startCommand_restores _ _ _ _ _ ⟨Session.sampleFiles, [], []⟩ sampleMachine_capturable
    (List.forall_mem_singleton.mpr (by decide)) (Kernel.willing_readmits _)

end BetterCpu
