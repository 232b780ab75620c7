import BetterCpu.Topology.Siblings

/-!
# The processors that are online

The directory of the processors as the kernel shows it: one entry for each of
them among others with other names.  Counting the processors that are online
comes to their number, and no list of siblings gets in its way.
-/

namespace BetterCpu.Topology

open Text

/-- What the kernel shows of a processor.  One that cannot be taken offline has
no file that says so, and one that is offline has no list of siblings. -/
structure KernelCpu where
  id : ℕ
  online : Option Bool
  siblings : Option SiblingIds
  coreId : Option Text
  packageId : Option Text
  capacity : Option Text
  id_lt : id < 2 ^ 31

namespace KernelCpu

def name (cpu : KernelCpu) : Text :=
  cpuKey ++ decimal cpu.id

def files (cpu : KernelCpu) : CpuFiles where
  online := cpu.online.map fun flag ↦ decimal flag.toNat ++ ['\n']
  coreId := cpu.coreId
  packageId := cpu.packageId
  capacity := cpu.capacity
  threadSiblings := cpu.siblings.map fun S ↦ S.text ++ ['\n']

/-- The first processor always counts as online, even if a file of its own says
that it is not. -/
def isOnline (cpu : KernelCpu) : Bool :=
  cpu.id = 0 || cpu.online ≠ some false

end KernelCpu

/-- An entry of the directory: a processor, or something with another name. -/
inductive CpuItem where
  | cpu (shown : KernelCpu)
  | other (name : Text) (named : ¬ IsCpuName name)

def CpuItem.name : CpuItem → Text
  | .cpu shown => shown.name
  | .other name _ => name

def CpuItem.cpu? : CpuItem → Option KernelCpu
  | .cpu shown => some shown
  | .other _ _ => none

/-- The directory in the order in which it is read. -/
structure CpuDirectory where
  items : List CpuItem
  nodup : ((items.filterMap CpuItem.cpu?).map KernelCpu.id).Nodup

namespace CpuDirectory

def cpus (directory : CpuDirectory) : List KernelCpu :=
  directory.items.filterMap CpuItem.cpu?

def tree (directory : CpuDirectory) : CpuTree where
  entries := some (directory.items.map CpuItem.name)
  files := fun cpuId ↦
    match directory.cpus.find? fun cpu ↦ Int32.ofNat cpu.id == cpuId with
    | none => ⟨none, none, none, none, none⟩
    | some cpu => cpu.files

def onlineCount (directory : CpuDirectory) : ℕ :=
  directory.cpus.countP KernelCpu.isOnline

end CpuDirectory

/-- There are no more processors than ids. -/
theorem CpuDirectory.onlineCount_le (directory : CpuDirectory) :
    directory.onlineCount ≤ 2 ^ 31 := by
  have hids : (directory.cpus.map KernelCpu.id).toFinset ⊆ Finset.range (2 ^ 31) := by
    intro id hid
    obtain ⟨cpu, -, rfl⟩ := List.mem_map.mp (List.mem_toFinset.mp hid)
    exact Finset.mem_range.mpr cpu.id_lt
  have hnodup : (directory.cpus.map KernelCpu.id).Nodup := directory.nodup
  have hcard := Finset.card_le_card hids
  rw [List.toFinset_card_of_nodup hnodup, List.length_map, Finset.card_range] at hcard
  exact List.countP_le_length.trans hcard

/-! ## What is read of a processor -/

theorem KernelCpu.ofNat_inj {cpu cpu' : KernelCpu} :
    Int32.ofNat cpu.id = Int32.ofNat cpu'.id ↔ cpu.id = cpu'.id := by
  rw [← Int32.toInt_inj, Int32.toInt_ofNat_of_lt cpu.id_lt, Int32.toInt_ofNat_of_lt cpu'.id_lt]
  exact Int.ofNat_inj

theorem CpuDirectory.files_tree (directory : CpuDirectory) {cpu : KernelCpu}
    (h : cpu ∈ directory.cpus) : directory.tree.files (Int32.ofNat cpu.id) = cpu.files := by
  have hfind : directory.cpus.find? (fun cpu' ↦ Int32.ofNat cpu'.id == Int32.ofNat cpu.id) =
      some cpu := by
    refine find?_eq_some_of_unique h (by simp) fun cpu' hcpu' hid ↦ ?_
    exact List.inj_on_of_nodup_map directory.nodup hcpu' h
      (KernelCpu.ofNat_inj.mp (by simpa using hid))
  simp only [CpuDirectory.tree, hfind]

theorem readOnlineState_files (cpu : KernelCpu) :
    readOnlineState (Int32.ofNat cpu.id) cpu.files.online = cpu.isOnline := by
  have hzero : Int32.ofNat cpu.id = 0 ↔ cpu.id = 0 := by
    rw [← Int32.toInt_inj, Int32.toInt_ofNat_of_lt cpu.id_lt]
    simp
  unfold readOnlineState KernelCpu.isOnline
  by_cases hid : cpu.id = 0
  · simp [hid]
  · have hne : ¬ Int32.ofNat cpu.id = 0 := mt hzero.mp hid
    rw [if_neg hne]
    cases honline : cpu.online with
    | none => simp [KernelCpu.files, honline]
    | some flag =>
        simp only [KernelCpu.files, honline, hid, Option.map_some]
        cases flag <;> decide

theorem exists_readThreadSiblings_files (cpu : KernelCpu) :
    ∃ siblings, readThreadSiblings cpu.files.threadSiblings = .ok siblings := by
  cases hsiblings : cpu.siblings with
  | none => exact ⟨[], by rw [KernelCpu.files, hsiblings]; rfl⟩
  | some S =>
      rw [KernelCpu.files, hsiblings]
      exact ⟨_, S.readThreadSiblings_text⟩

theorem discoverCore_cpu (directory : CpuDirectory) {cpu : KernelCpu}
    (h : cpu ∈ directory.cpus) {siblings : List Int32}
    (hsiblings : readThreadSiblings cpu.files.threadSiblings = .ok siblings) :
    discoverCore directory.tree cpu.name = .ok (some
      { cpuId := Int32.ofNat cpu.id
        coreId := readCoreId cpu.coreId
        packageId := readPackageId cpu.packageId
        capacity := readCpuCapacity cpu.capacity
        isOnline := cpu.isOnline
        isSmtSibling := isSmtSibling siblings (Int32.ofNat cpu.id) }) := by
  have hkey : cpuKey.isPrefixOf cpu.name = true :=
    List.isPrefixOf_iff_prefix.mpr (List.prefix_append _ _)
  have hdrop : cpu.name.drop 3 = decimal cpu.id := rfl
  have hdigit : (decimal cpu.id).head?.any Char.isDigit = true := by
    obtain ⟨c, t, ht⟩ := List.exists_cons_of_ne_nil (decimal_ne_nil cpu.id)
    have hc : c.isDigit = true := isDigit_of_mem_decimal (n := cpu.id) (by simp [ht])
    simp [ht, hc]
  have hid : stoi (decimal cpu.id) = .ok (Int32.ofNat cpu.id) := by
    simpa using stoi_decimal cpu.id_lt (r := []) (by simp)
  rw [← readOnlineState_files cpu]
  simp only [discoverCore, hkey, hdrop, hdigit, hid, Bool.not_true, Bool.false_eq_true, if_false]
  change (readThreadSiblings (directory.tree.files (Int32.ofNat cpu.id)).threadSiblings >>=
    _) = _
  rw [directory.files_tree h, hsiblings]
  rfl

theorem discoverCore_other (tree : CpuTree) {name : Text} (named : ¬ IsCpuName name) :
    discoverCore tree name = .ok none := by
  rcases not_and_or.mp named with hkey | hdigit
  · simp only [discoverCore, hkey]
    rfl
  · by_cases hkey : cpuKey.isPrefixOf name = true
    · simp only [discoverCore, hkey, hdigit]
      rfl
    · simp only [discoverCore, hkey]
      rfl

/-- The processors are discovered in the order of the directory. -/
theorem discoverCores_tree (directory : CpuDirectory) {core : KernelCpu → CpuCoreInfo}
    (hcore : ∀ cpu ∈ directory.cpus,
      discoverCore directory.tree cpu.name = .ok (some (core cpu))) :
    discoverCores directory.tree = .ok (directory.cpus.map core) := by
  have hitem : ∀ item ∈ directory.items,
      discoverCore directory.tree item.name = .ok (item.cpu?.map core) := by
    rintro (shown | ⟨name, named⟩) hitem
    · exact hcore shown (List.mem_filterMap.mpr ⟨_, hitem, rfl⟩)
    · exact discoverCore_other directory.tree named
  change collect (discoverCore directory.tree) (directory.items.map CpuItem.name) = _
  rw [collect_map, collect_eq_ok hitem, CpuDirectory.cpus, List.map_filterMap]

/-- The processors that are online are counted, whichever they are and however
their siblings are numbered. -/
theorem onlineCpuCount_tree (directory : CpuDirectory) :
    onlineCpuCount directory.tree = .ok directory.onlineCount := by
  choose siblings hsiblings using exists_readThreadSiblings_files
  have hcores := discoverCores_tree directory fun cpu hcpu ↦
    discoverCore_cpu directory hcpu (hsiblings cpu)
  rw [onlineCpuCount, hcores]
  change Except.ok (List.countP _ (List.map _ _)) = _
  rw [List.countP_map]
  rfl

end BetterCpu.Topology
