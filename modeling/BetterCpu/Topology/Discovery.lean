import BetterCpu.Topology.OnlineCount

/-!
# What is discovered of the processors

On the directory of the kernel, `discover_cores` finds each processor once, with
the numbers that its files show.  Only the flag of a sibling depends on how the
threads are numbered.
-/

namespace BetterCpu.Topology

/-- A processor in numbers, without those whose files are not there.  It is one
of its own siblings. -/
structure Processor where
  id : ℕ
  online : Option Bool
  siblings : Option SiblingIds
  coreId : Option Int32
  packageId : Option Int32
  capacity : Option UInt32
  id_lt : id < 2 ^ 31
  self_mem : ∀ S ∈ siblings, id ∈ S.ids

namespace Processor

variable (processor : Processor)

def shown : KernelCpu where
  id := processor.id
  online := processor.online
  siblings := processor.siblings
  coreId := processor.coreId.map fun n ↦ Text.decimalInt n.toInt ++ ['\n']
  packageId := processor.packageId.map fun n ↦ Text.decimalInt n.toInt ++ ['\n']
  capacity := processor.capacity.map fun n ↦ Text.decimal n.toNat ++ ['\n']
  id_lt := processor.id_lt

/-- The siblings are several runs of ids, and the processor is not the first. -/
def isFlagged : Bool :=
  processor.siblings.any fun S ↦ 1 < S.runs.length && processor.id ≠ S.ids.min' S.nonempty

def info : CpuCoreInfo where
  cpuId := Int32.ofNat processor.id
  coreId := processor.coreId.getD (-1)
  packageId := processor.packageId.getD (-1)
  capacity := processor.capacity.getD 1024
  isOnline := processor.shown.isOnline
  isSmtSibling := processor.isFlagged

end Processor

def hasHybridCapacities : List CpuCoreInfo → Bool
  | [] => false
  | first :: cores => (first :: cores).any fun core ↦ core.capacity ≠ first.capacity

/-! ## The files of a processor -/

theorem readInt_map (default : Int32) (n : Option Int32) :
    readInt default (n.map fun n ↦ Text.decimalInt n.toInt ++ ['\n']) = n.getD default := by
  cases n with
  | none => rfl
  | some n => exact IStream.int32_line default n

theorem readCpuCapacity_map (n : Option UInt32) :
    readCpuCapacity (n.map fun n ↦ Text.decimal n.toNat ++ ['\n']) = n.getD 1024 := by
  cases n with
  | none => rfl
  | some n => exact IStream.uint32_line 1024 n

theorem Processor.readThreadSiblings_shown (processor : Processor) :
    ∃ siblings, readThreadSiblings processor.shown.files.threadSiblings = .ok siblings ∧
      isSmtSibling siblings (Int32.ofNat processor.id) = processor.isFlagged := by
  cases hsiblings : processor.siblings with
  | none =>
      refine ⟨[], ?_, ?_⟩
      · simp only [shown, KernelCpu.files, hsiblings]
        rfl
      · simp only [isFlagged, hsiblings]
        rfl
  | some S =>
      refine ⟨S.heads.map Int32.ofNat, ?_, ?_⟩
      · simp only [shown, KernelCpu.files, hsiblings]
        exact S.readThreadSiblings_text
      · have hflag := S.isSmtSibling_heads (processor.self_mem S hsiblings)
        rw [Bool.eq_iff_iff, hflag]
        simp [isFlagged, hsiblings]

theorem Processor.discoverCore_shown {directory : CpuDirectory} {processor : Processor}
    (h : processor.shown ∈ directory.cpus) :
    discoverCore directory.tree processor.shown.name = .ok (some processor.info) := by
  obtain ⟨siblings, hread, hflag⟩ := processor.readThreadSiblings_shown
  have hcore := discoverCore_cpu directory h hread
  rw [hcore, info, ← hflag]
  simp only [shown, readCoreId, readPackageId, readInt_map, readCpuCapacity_map]

/-! ## The directory -/

theorem SiblingIds.ne_min_iff {S : SiblingIds} {id : ℕ} (hid : id ∈ S.ids) :
    id ≠ S.ids.min' S.nonempty ↔ ∃ other ∈ S.ids, other < id := by
  constructor
  · intro hne
    exact ⟨_, S.ids.min'_mem S.nonempty, lt_of_le_of_ne (S.ids.min'_le id hid) hne.symm⟩
  · rintro ⟨other, hother, hlt⟩ rfl
    exact absurd (S.ids.min'_le other hother) (not_le.mpr hlt)

theorem Processor.isFlagged_iff {processor : Processor} :
    processor.isFlagged = true ↔ ∃ S ∈ processor.siblings,
      (∃ other ∈ S.ids, other < processor.id) ∧ ¬ ∃ a n, S.ids = Finset.Icc a (a + n) := by
  cases hsiblings : processor.siblings with
  | none => simp [isFlagged, hsiblings]
  | some S =>
      have hmin := SiblingIds.ne_min_iff (processor.self_mem S hsiblings)
      have hruns := S.one_lt_length_runs_iff
      simp only [isFlagged, hsiblings, Option.any_some, Bool.and_eq_true, decide_eq_true_eq, hruns,
        hmin, Option.mem_def, Option.some.injEq, exists_eq_left']
      exact and_comm

theorem hasHybridCapacities_iff {cores : List CpuCoreInfo} :
    hasHybridCapacities cores = true ↔
      ∃ core ∈ cores, ∃ core' ∈ cores, core.capacity ≠ core'.capacity := by
  cases cores with
  | nil => simp [hasHybridCapacities]
  | cons first cores =>
      simp only [hasHybridCapacities, List.any_eq_true, decide_eq_true_eq]
      constructor
      · rintro ⟨core, hcore, hne⟩
        exact ⟨core, hcore, first, List.mem_cons_self, hne⟩
      · rintro ⟨core, hcore, core', hcore', hne⟩
        -- one of the two differs from the first
        by_cases hfirst : core.capacity = first.capacity
        · exact ⟨core', hcore', fun h ↦ hne (hfirst.trans h.symm)⟩
        · exact ⟨core, hcore, hfirst⟩

theorem discoverCores_shown {directory : CpuDirectory} {processors : List Processor}
    (hshown : directory.cpus = processors.map Processor.shown) :
    discoverCores directory.tree = .ok (processors.map Processor.info) := by
  choose siblings hsiblings using exists_readThreadSiblings_files
  have hcore := fun cpu hcpu ↦ discoverCore_cpu directory hcpu (hsiblings cpu)
  rw [discoverCores_tree directory hcore, hshown, List.map_map]
  refine congrArg Except.ok (List.map_congr_left fun processor hprocessor ↦ ?_)
  have hmem : processor.shown ∈ directory.cpus := by
    rw [hshown]
    exact List.mem_map_of_mem hprocessor
  have hresult := (hcore processor.shown hmem).symm.trans (Processor.discoverCore_shown hmem)
  exact Option.some.inj (Except.ok.inj hresult)

theorem nodup_cpuId_shown {directory : CpuDirectory} {processors : List Processor}
    (hshown : directory.cpus = processors.map Processor.shown) :
    ((processors.map Processor.info).map CpuCoreInfo.cpuId).Nodup := by
  have hids : (processors.map Processor.id).Nodup := by
    have hnodup : (directory.cpus.map KernelCpu.id).Nodup := directory.nodup
    rwa [hshown, List.map_map] at hnodup
  rw [List.map_map]
  refine (List.nodup_map_iff_inj_on hids.of_map).mpr fun x hx y hy hxy ↦ ?_
  have hshownIds : Int32.ofNat x.shown.id = Int32.ofNat y.shown.id := hxy
  exact List.inj_on_of_nodup_map hids hx hy (KernelCpu.ofNat_inj.mp hshownIds)

/-- Whatever processors the kernel shows, under whatever ids and in whatever
order, each of them is discovered once and in its place, with the numbers that
its files show or their defaults.  It is flagged as a sibling if and only if it
has one with a smaller id and their ids are not consecutive.  The capacities are
hybrid if and only if those of two processors differ. -/
theorem discoverCores_of_processors (directory : CpuDirectory) (processors : List Processor)
    (hshown : directory.cpus = processors.map Processor.shown) :
    discoverCores directory.tree = .ok (processors.map Processor.info) ∧
      ((processors.map Processor.info).map CpuCoreInfo.cpuId).Nodup ∧
      (∀ processor ∈ processors, processor.info.isSmtSibling = true ↔
        ∃ S ∈ processor.siblings, (∃ other ∈ S.ids, other < processor.id) ∧
          ¬ ∃ a n, S.ids = Finset.Icc a (a + n)) ∧
      (hasHybridCapacities (processors.map Processor.info) = true ↔
        ∃ processor ∈ processors, ∃ processor' ∈ processors,
          processor.capacity.getD 1024 ≠ processor'.capacity.getD 1024) := by
  refine ⟨discoverCores_shown hshown, nodup_cpuId_shown hshown,
    fun _ _ ↦ Processor.isFlagged_iff, ?_⟩
  rw [hasHybridCapacities_iff]
  simp only [List.mem_map, exists_exists_and_eq_and]
  rfl

/-- A large core and a small one, of which the second is shown first. -/
def largeCore : Processor :=
  ⟨0, none, none, some 0, some 0, some 1024, by decide, by simp⟩

def smallCore : Processor :=
  ⟨6, some true, none, some 4, some 0, some 446, by decide, by simp⟩

def hybridDirectory : CpuDirectory where
  items := [.cpu smallCore.shown, .cpu largeCore.shown]
  nodup := by decide

theorem discoverCores_of_processors_hybrid :
    discoverCores hybridDirectory.tree =
        .ok [⟨6, 4, 0, 446, true, false⟩, ⟨0, 0, 0, 1024, true, false⟩] ∧
      hasHybridCapacities [⟨6, 4, 0, 446, true, false⟩, ⟨0, 0, 0, 1024, true, false⟩] = true := by
  obtain ⟨hcores, -, -, hhybrid⟩ :=
    discoverCores_of_processors hybridDirectory [smallCore, largeCore] rfl
  exact ⟨hcores, hhybrid.mpr ⟨smallCore, by simp, largeCore, by simp, by decide⟩⟩

end BetterCpu.Topology
