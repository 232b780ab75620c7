import BetterCpu.Library.Collect
import BetterCpu.Library.Lines
import BetterCpu.Sensors

/-!
# The topology of the processor

`discover_cores` lists the directories of the processors and reads the files of
each one.  The ids in the names and the lists of siblings are converted with
`std::stoi`, which may throw.
-/

namespace BetterCpu

namespace Topology

open Text

/-- The files of one processor, `none` for one that cannot be opened. -/
structure CpuFiles where
  online : Option Text
  coreId : Option Text
  packageId : Option Text
  capacity : Option Text
  threadSiblings : Option Text

/-- The entries of `/sys/devices/system/cpu`, `none` when the directory cannot
be opened, and the files below it.  Their paths are made from the id. -/
structure CpuTree where
  entries : Option (List Text)
  files : Int32 → CpuFiles

def readCpuCapacity (capacity : Option Text) : UInt32 :=
  match capacity with
  | none => 1024
  | some t => ((IStream.ofText t).uint32 1024).1

def readCoreId (coreId : Option Text) : Int32 :=
  readInt (-1) coreId

def readPackageId (packageId : Option Text) : Int32 :=
  readInt (-1) packageId

def readOnlineState (cpuId : Int32) (online : Option Text) : Bool :=
  if cpuId = 0 then true
  else
    match online with
    | none => true
    | some t => ((IStream.ofText t).int32 1).1 = 1

/-- The tokens are those of the first line. -/
def readThreadSiblings (threadSiblings : Option Text) : Except StdException (List Int32) :=
  match threadSiblings with
  | none => return []
  | some content => (getlines ',' (content.takeWhile (· ≠ '\n'))).mapM stoi

def isSmtSibling (siblings : List Int32) (cpuId : Int32) : Bool :=
  1 < siblings.length && siblings.head? ≠ some cpuId

def cpuKey : Text := ['c', 'p', 'u']

/-- One turn of the loop over the directory; `none` where it continues. -/
def discoverCore (tree : CpuTree) (name : Text) : Except StdException (Option CpuCoreInfo) :=
  if !cpuKey.isPrefixOf name then return none
  else if !(name.drop 3).head?.any Char.isDigit then return none
  else do
    let cpuId ← stoi (name.drop 3)
    let files := tree.files cpuId
    let siblings ← readThreadSiblings files.threadSiblings
    return some {
      cpuId := cpuId
      coreId := readCoreId files.coreId
      packageId := readPackageId files.packageId
      capacity := readCpuCapacity files.capacity
      isOnline := readOnlineState cpuId files.online
      isSmtSibling := isSmtSibling siblings cpuId }

def discoverCores (tree : CpuTree) : Except StdException (List CpuCoreInfo) :=
  match tree.entries with
  | none => return []
  | some entries => collect (discoverCore tree) entries

def onlineCpuCount (tree : CpuTree) : Except StdException ℕ := do
  let cores ← discoverCores tree
  return cores.countP CpuCoreInfo.isOnline

/-! ## When an exception escapes -/

def HarmlessSiblings (threadSiblings : Option Text) : Prop :=
  ∀ content, threadSiblings = some content →
    ∀ token ∈ getlines ',' (content.takeWhile (· ≠ '\n')), StartsWithInt token

/-- The name is that of a processor, as far as the loop looks at it. -/
def IsCpuName (name : Text) : Prop :=
  cpuKey.isPrefixOf name = true ∧ (name.drop 3).head?.any Char.isDigit = true

def HarmlessCpu (tree : CpuTree) (name : Text) : Prop :=
  IsCpuName name → StartsWithInt (name.drop 3) ∧
    ∀ cpuId, stoi (name.drop 3) = .ok cpuId → HarmlessSiblings (tree.files cpuId).threadSiblings

def HarmlessTree (tree : CpuTree) : Prop :=
  ∀ entries, tree.entries = some entries → ∀ name ∈ entries, HarmlessCpu tree name

theorem readThreadSiblings_returns_iff {threadSiblings : Option Text} :
    (∃ siblings, readThreadSiblings threadSiblings = .ok siblings) ↔
      HarmlessSiblings threadSiblings := by
  unfold readThreadSiblings HarmlessSiblings
  cases threadSiblings with
  | none => exact iff_of_true ⟨_, rfl⟩ (by simp)
  | some content => simp only [mapM_returns_iff, stoi_returns_iff, Option.some.injEq, forall_eq']

theorem discoverCore_returns_iff {tree : CpuTree} {name : Text} :
    (∃ core, discoverCore tree name = .ok core) ↔ HarmlessCpu tree name := by
  unfold discoverCore HarmlessCpu IsCpuName
  split
  · next hkey =>
      refine iff_of_true ⟨_, rfl⟩ fun hname ↦ ?_
      rw [hname.1] at hkey
      cases hkey
  split
  · next hdigit =>
      refine iff_of_true ⟨_, rfl⟩ fun hname ↦ ?_
      rw [hname.2] at hdigit
      cases hdigit
  next hkey hdigit =>
    have hname : cpuKey.isPrefixOf name = true ∧ (name.drop 3).head?.any Char.isDigit = true := by
      simpa using And.intro hkey hdigit
    rw [bind_returns_iff, forall_prop_of_true hname, ← stoi_returns_iff]
    simp only [bind_returns_iff, ← readThreadSiblings_returns_iff]
    constructor
    · rintro ⟨cpuId, hid, siblings, hsiblings, -⟩
      refine ⟨⟨cpuId, hid⟩, fun cpuId' hid' ↦ ⟨siblings, ?_⟩⟩
      rw [hid] at hid'
      cases hid'
      exact hsiblings
    · rintro ⟨⟨cpuId, hid⟩, hall⟩
      obtain ⟨siblings, hsiblings⟩ := hall cpuId hid
      exact ⟨cpuId, hid, siblings, hsiblings, _, rfl⟩

theorem onlineCpuCount_returns_iff {tree : CpuTree} :
    (∃ count, onlineCpuCount tree = .ok count) ↔ HarmlessTree tree := by
  have hcores : (∃ count, onlineCpuCount tree = .ok count) ↔
      ∃ cores, discoverCores tree = .ok cores := by
    rw [onlineCpuCount, bind_returns_iff]
    exact exists_congr fun cores ↦ and_iff_left ⟨_, rfl⟩
  rw [hcores]
  unfold discoverCores HarmlessTree
  cases tree.entries with
  | none => exact iff_of_true ⟨_, rfl⟩ (by simp)
  | some entries =>
      simp only [collect_returns_iff, discoverCore_returns_iff, Option.some.injEq, forall_eq']

/-! ## What a core is -/

/-- The flag of a core that is listed is computed from the siblings that are
read of it. -/
theorem isSmtSibling_of_discoverCore {tree : CpuTree} {name : Text} {core : CpuCoreInfo}
    (h : discoverCore tree name = .ok (some core)) {siblings : List Int32}
    (hsiblings : readThreadSiblings (tree.files core.cpuId).threadSiblings = .ok siblings) :
    core.isSmtSibling = isSmtSibling siblings core.cpuId := by
  unfold discoverCore at h
  split at h
  · cases h
  split at h
  · cases h
  obtain ⟨cpuId, -, hrest⟩ := bind_eq_ok_iff.mp h
  obtain ⟨read, hread, hcore⟩ := bind_eq_ok_iff.mp hrest
  cases hcore
  rw [hread] at hsiblings
  cases hsiblings
  rfl

theorem isSmtSibling_of_discoverCores {tree : CpuTree} {cores : List CpuCoreInfo}
    (h : discoverCores tree = .ok cores) {core : CpuCoreInfo} (hcore : core ∈ cores)
    {siblings : List Int32}
    (hsiblings : readThreadSiblings (tree.files core.cpuId).threadSiblings = .ok siblings) :
    core.isSmtSibling = isSmtSibling siblings core.cpuId := by
  unfold discoverCores at h
  split at h
  · cases h
    cases hcore
  · obtain ⟨name, -, hname⟩ := (mem_collect_iff h).mp hcore
    exact isSmtSibling_of_discoverCore hname hsiblings

end Topology
end BetterCpu
