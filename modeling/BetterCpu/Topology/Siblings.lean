import BetterCpu.Library.Runs
import BetterCpu.Library.Search
import BetterCpu.Topology

/-!
# The lists of siblings

The kernel writes a set of processors as an ascending list with commas, in
which a run of consecutive ids is its first and its last with a hyphen between
them.  `read_thread_siblings` takes the first number of each token.
-/

namespace BetterCpu.Topology

open Runs Text

/-- A set of siblings; the ids of the kernel are below its number of
processors, which is an `int`. -/
structure SiblingIds where
  ids : Finset ℕ
  nonempty : ids.Nonempty
  fits : ∀ id ∈ ids, id < 2 ^ 31

def runText : List ℕ → Text
  | [] => []
  | first :: rest =>
      match rest.getLast? with
      | none => decimal first
      | some last => decimal first ++ '-' :: decimal last

namespace SiblingIds

/-- The runs of consecutive ids. -/
def runs (S : SiblingIds) : List (List ℕ) :=
  S.ids.sort.splitBy fun a b ↦ b = a + 1

def text (S : SiblingIds) : Text :=
  [','].intercalate (S.runs.map runText)

/-- Every file of a sibling has the list of all. -/
def ShownBy (S : SiblingIds) (tree : CpuTree) : Prop :=
  ∀ id ∈ S.ids, (tree.files (Int32.ofNat id)).threadSiblings = some (S.text ++ ['\n'])

/-- The siblings are read as the ids in ascending order. -/
def Decoded (S : SiblingIds) (tree : CpuTree) : Prop :=
  ∀ id ∈ S.ids, readThreadSiblings (tree.files (Int32.ofNat id)).threadSiblings =
    .ok (S.ids.sort.map Int32.ofNat)

/-- All siblings are flagged but the smallest. -/
def Flagged (S : SiblingIds) (cores : List CpuCoreInfo) : Prop :=
  ∀ core ∈ cores, ∀ id ∈ S.ids, core.cpuId = Int32.ofNat id →
    (core.isSmtSibling = true ↔ id ≠ S.ids.min' S.nonempty)

variable (S : SiblingIds)

theorem ofNat_inj {S : SiblingIds} {a b : ℕ} (ha : a ∈ S.ids) (hb : b ∈ S.ids) :
    Int32.ofNat a = Int32.ofNat b ↔ a = b := by
  rw [← Int32.toInt_inj, Int32.toInt_ofNat_of_lt (S.fits a ha),
    Int32.toInt_ofNat_of_lt (S.fits b hb)]
  exact Int.ofNat_inj

/-! ## What is read -/

theorem ne_nil_of_mem_runs {S : SiblingIds} {run : List ℕ} (h : run ∈ S.runs) : run ≠ [] :=
  List.ne_nil_of_mem_splitBy h

theorem mem_ids_of_mem_runs {S : SiblingIds} {run : List ℕ} (h : run ∈ S.runs) {id : ℕ}
    (hid : id ∈ run) : id ∈ S.ids := by
  have hflatten : id ∈ S.runs.flatten := List.mem_flatten.mpr ⟨run, h, hid⟩
  rw [runs, List.flatten_splitBy] at hflatten
  exact (Finset.mem_sort _).mp hflatten

/-- A token starts with the first id of its run and goes on behind a hyphen, if
it goes on. -/
theorem exists_runText_eq (first : ℕ) (rest : List ℕ) :
    ∃ t, runText (first :: rest) = decimal first ++ t ∧ (∀ c ∈ t.head?, c.isDigit = false) ∧
      ∀ c ∈ t, c.isDigit = true ∨ c = '-' := by
  cases hlast : rest.getLast? with
  | none => exact ⟨[], by simp [runText, hlast], by simp, by simp⟩
  | some last =>
      refine ⟨'-' :: decimal last, by simp [runText, hlast], by simp, fun c hc ↦ ?_⟩
      exact (List.mem_cons.mp hc).symm.imp_left isDigit_of_mem_decimal

theorem mem_runText {run : List ℕ} {c : Char} (h : c ∈ runText run) :
    c.isDigit = true ∨ c = '-' := by
  cases run with
  | nil => cases h
  | cons first rest =>
      obtain ⟨t, ht, -, hchar⟩ := exists_runText_eq first rest
      rw [ht] at h
      exact (List.mem_append.mp h).elim (fun hc ↦ Or.inl (isDigit_of_mem_decimal hc)) (hchar c)

theorem runText_ne_nil {run : List ℕ} (h : run ≠ []) : runText run ≠ [] := by
  obtain ⟨first, rest, rfl⟩ := List.exists_cons_of_ne_nil h
  obtain ⟨t, ht, -⟩ := exists_runText_eq first rest
  rw [ht]
  exact List.append_ne_nil_of_left_ne_nil (decimal_ne_nil first) _

/-- The conversion of a token stops at the hyphen. -/
theorem stoi_runText {first : ℕ} (h : first < 2 ^ 31) (rest : List ℕ) :
    stoi (runText (first :: rest)) = .ok (Int32.ofNat first) := by
  obtain ⟨t, ht, hhead, -⟩ := exists_runText_eq first rest
  rw [ht]
  exact stoi_decimal h hhead

theorem readThreadSiblings_text :
    readThreadSiblings (some (S.text ++ ['\n'])) =
      .ok ((S.runs.filterMap List.head?).map Int32.ofNat) := by
  have hchar {c : Char} (hc : c.isDigit = false) (hhyphen : c ≠ '-') :
      ∀ token ∈ S.runs.map runText, c ∉ token := by
    intro token htoken hmem
    obtain ⟨run, -, rfl⟩ := List.mem_map.mp htoken
    rcases mem_runText hmem with hdigit | rfl
    · simp [hdigit] at hc
    · exact hhyphen rfl
  have hline : (S.text ++ ['\n']).takeWhile (· ≠ '\n') = S.text := by
    refine takeWhile_ne_append_cons fun hmem ↦ ?_
    rcases mem_intercalate hmem with hcomma | ⟨token, htoken, hnewline⟩
    · cases hcomma
    · exact hchar (by decide) (by decide) token htoken hnewline
  have hempty : ∀ token ∈ S.runs.map runText, token ≠ [] := by
    intro token htoken
    obtain ⟨run, hrun, rfl⟩ := List.mem_map.mp htoken
    exact runText_ne_nil (ne_nil_of_mem_runs hrun)
  have htokens : getlines ',' S.text = S.runs.map runText :=
    getlines_intercalate (hchar (by decide) (by decide)) hempty
  have hstoi : ∀ run ∈ S.runs, stoi (runText run) = .ok (Int32.ofNat (run.headD 0)) := by
    intro run hrun
    obtain ⟨first, rest, rfl⟩ := List.exists_cons_of_ne_nil (ne_nil_of_mem_runs hrun)
    exact stoi_runText (S.fits first (mem_ids_of_mem_runs hrun List.mem_cons_self)) rest
  have hheads : S.runs.filterMap List.head? = S.runs.map fun run ↦ run.headD 0 := by
    rw [← List.filterMap_eq_map]
    refine List.filterMap_congr fun run hrun ↦ ?_
    obtain ⟨first, rest, rfl⟩ := List.exists_cons_of_ne_nil (ne_nil_of_mem_runs hrun)
    rfl
  simp only [readThreadSiblings, hline, htokens, List.mapM_map, hheads, List.map_map]
  exact mapM_eq_ok hstoi

/-! ## When it is what was written -/

/-- The first ids of the runs. -/
def heads : List ℕ :=
  S.runs.filterMap List.head?

theorem mem_ids_of_mem_heads {S : SiblingIds} {id : ℕ} (h : id ∈ S.heads) : id ∈ S.ids := by
  obtain ⟨run, hrun, hid⟩ := List.mem_filterMap.mp h
  exact mem_ids_of_mem_runs hrun (List.mem_of_mem_head? hid)

theorem map_ofNat_inj {S : SiblingIds} {l l' : List ℕ} (hl : ∀ id ∈ l, id ∈ S.ids)
    (hl' : ∀ id ∈ l', id ∈ S.ids) : l.map Int32.ofNat = l'.map Int32.ofNat ↔ l = l' := by
  have hback {l : List ℕ} (hl : ∀ id ∈ l, id ∈ S.ids) :
      (l.map Int32.ofNat).map (fun id ↦ id.toInt.toNat) = l := by
    rw [List.map_map]
    refine (List.map_congr_left fun id hid ↦ ?_).trans (List.map_id l)
    simp only [Function.comp, Int32.toInt_ofNat_of_lt (S.fits id (hl id hid)), Int.toNat_natCast]
    rfl
  constructor
  · intro h
    rw [← hback hl, h, hback hl']
  · rintro rfl
    rfl

theorem decoded_iff {tree : CpuTree} (hshown : S.ShownBy tree) :
    S.Decoded tree ↔ ∀ id ∈ S.ids, id + 1 ∉ S.ids := by
  have hread : S.Decoded tree ↔ S.heads = S.ids.sort := by
    obtain ⟨id, hid⟩ := S.nonempty
    rw [← map_ofNat_inj (fun _ ↦ mem_ids_of_mem_heads) fun _ ↦ (Finset.mem_sort _).mp]
    constructor
    · intro h
      have hid := h id hid
      rw [hshown id ‹_›, readThreadSiblings_text] at hid
      exact Except.ok.inj hid
    · intro h id hid
      rw [hshown id hid, readThreadSiblings_text]
      exact congrArg Except.ok h
  rw [hread, heads, runs, heads_splitBy_eq_self_iff, ← sort_isChain_ne_succ_iff]
  simp only [decide_eq_false_iff_not]

theorem isSmtSibling_heads {id : ℕ} (hid : id ∈ S.ids) :
    isSmtSibling (S.heads.map Int32.ofNat) (Int32.ofNat id) = true ↔
      1 < S.runs.length ∧ id ≠ S.ids.min' S.nonempty := by
  have hne : [] ∉ S.runs := List.nil_notMem_splitBy _ _
  have hhead : S.heads.head? = some (S.ids.min' S.nonempty) := by
    rw [heads, head?_heads hne, runs, List.flatten_splitBy, head?_sort S.nonempty]
  have hflag : (S.heads.map Int32.ofNat).head? ≠ some (Int32.ofNat id) ↔
      id ≠ S.ids.min' S.nonempty := by
    rw [List.head?_map, hhead, Option.map_some, ne_eq, Option.some.injEq,
      ofNat_inj (S.ids.min'_mem S.nonempty) hid, eq_comm]
  rw [isSmtSibling, Bool.and_eq_true, decide_eq_true_eq, decide_eq_true_eq, hflag,
    List.length_map, heads, length_heads hne]

theorem one_lt_length_runs_iff :
    1 < S.runs.length ↔ ¬ ∃ a n, S.ids = Finset.Icc a (a + n) := by
  have hsort : S.ids.sort ≠ [] := by
    rw [← List.length_pos_iff, Finset.length_sort]
    exact S.nonempty.card_pos
  have hruns : S.runs.length ≠ 0 := by
    rw [ne_eq, List.length_eq_zero_iff]
    exact List.splitBy_ne_nil.mpr hsort
  rw [← sort_isChain_succ_iff S.nonempty]
  have hone := length_splitBy_eq_one_iff (r := fun a b : ℕ ↦ b = a + 1) hsort
  simp only [decide_eq_true_eq] at hone
  rw [← hone]
  have hlength : S.runs.length = (S.ids.sort.splitBy fun a b ↦ b = a + 1).length := rfl
  omega

/-- More than one run, or a single id, is anything but an interval of several
ids. -/
theorem one_lt_length_runs_or_iff :
    (1 < S.runs.length ∨ ∀ id ∈ S.ids, id = S.ids.min' S.nonempty) ↔
      ¬ ∃ a b, a < b ∧ S.ids = Finset.Icc a b := by
  rw [one_lt_length_runs_iff]
  constructor
  · rintro (hgap | hsingle) ⟨a, b, hlt, hinterval⟩
    · exact hgap ⟨a, b - a, by rw [hinterval, Nat.add_sub_cancel' hlt.le]⟩
    · have ha := hsingle a (by simp [hinterval, hlt.le])
      have hb := hsingle b (by simp [hinterval, hlt.le])
      omega
  · intro hnot
    by_cases hinterval : ∃ a n, S.ids = Finset.Icc a (a + n)
    · obtain ⟨a, n, hids⟩ := hinterval
      right
      cases n with
      | succ n => exact absurd ⟨a, a + (n + 1), by omega, hids⟩ hnot
      | zero =>
          have hmem (id : ℕ) : id ∈ S.ids ↔ id = a := by simp [hids]
          intro id hid
          rw [(hmem id).mp hid, (hmem _).mp (S.ids.min'_mem S.nonempty)]
    · exact Or.inl hinterval

theorem flagged_iff {tree : CpuTree} {cores : List CpuCoreInfo} (hshown : S.ShownBy tree)
    (hcores : discoverCores tree = .ok cores)
    (hlisted : ∀ id ∈ S.ids, ∃ core ∈ cores, core.cpuId = Int32.ofNat id) :
    S.Flagged cores ↔ ¬ ∃ a b, a < b ∧ S.ids = Finset.Icc a b := by
  have hflag {core : CpuCoreInfo} (hcore : core ∈ cores) {id : ℕ} (hid : id ∈ S.ids)
      (hcpu : core.cpuId = Int32.ofNat id) :
      core.isSmtSibling = true ↔ 1 < S.runs.length ∧ id ≠ S.ids.min' S.nonempty := by
    have hread : readThreadSiblings (tree.files core.cpuId).threadSiblings =
        .ok (S.heads.map Int32.ofNat) := by
      rw [hcpu, hshown id hid, readThreadSiblings_text, heads]
    rw [isSmtSibling_of_discoverCores hcores hcore hread, hcpu, S.isSmtSibling_heads hid]
  rw [← S.one_lt_length_runs_or_iff]
  constructor
  · intro h
    by_contra hnot
    rw [not_or, not_forall] at hnot
    obtain ⟨hone, id, hother⟩ := hnot
    obtain ⟨hid, hne⟩ := Classical.not_imp.mp hother
    obtain ⟨core, hcore, hcpu⟩ := hlisted id hid
    exact hone ((hflag hcore hid hcpu).mp ((h core hcore id hid hcpu).mpr hne)).1
  · rintro (hmany | hsingle) core hcore id hid hcpu
    · rw [hflag hcore hid hcpu, and_iff_right hmany]
    · rw [hflag hcore hid hcpu]
      exact ⟨And.right, fun hne ↦ absurd (hsingle id hid) hne⟩

end SiblingIds

/-- The list of the kernel is read back, and the flags that follow from it are
right, if and only if no two ids in it are consecutive.  The flags alone are
wrong only for sets of consecutive ids, which are one token. -/
theorem siblings_decoded_iff (S : SiblingIds) (tree : CpuTree) (cores : List CpuCoreInfo)
    (hshown : S.ShownBy tree) (hcores : discoverCores tree = .ok cores)
    (hlisted : ∀ id ∈ S.ids, ∃ core ∈ cores, core.cpuId = Int32.ofNat id) :
    (S.Decoded tree ∧ S.Flagged cores ↔ ∀ id ∈ S.ids, id + 1 ∉ S.ids) ∧
      (S.Flagged cores ↔ ¬ ∃ a b, a < b ∧ S.ids = Finset.Icc a b) := by
  have hflagged := S.flagged_iff hshown hcores hlisted
  refine ⟨?_, hflagged⟩
  rw [S.decoded_iff hshown, hflagged]
  refine ⟨And.left, fun hnone ↦ ⟨hnone, ?_⟩⟩
  rintro ⟨a, b, hlt, hids⟩
  refine hnone a ?_ ?_
  · simp [hids, hlt.le]
  · simp only [hids, Finset.mem_Icc]
    omega

/-- A machine with these entries whose processors are all siblings. -/
def siblingTree (entries : List Text) (S : SiblingIds) : CpuTree where
  entries := some entries
  files := fun _ ↦ ⟨none, none, none, none, some (S.text ++ ['\n'])⟩

def cpu0Name : Text := ['c', 'p', 'u', '0']
def cpu1Name : Text := ['c', 'p', 'u', '1']
def cpu2Name : Text := ['c', 'p', 'u', '2']

/-- Threads that are numbered side by side. -/
def adjacentIds : SiblingIds := ⟨{0, 1}, by simp, by simp⟩

def distantIds : SiblingIds := ⟨{0, 2}, by simp, by simp⟩

theorem sort_adjacentIds : adjacentIds.ids.sort = [0, 1] := by
  have hzero : ∀ b ∈ ({1} : Finset ℕ), 0 ≤ b := by simp
  have hsort := Finset.sort_insert (· ≤ ·) hzero (by simp)
  rwa [Finset.sort_singleton] at hsort

theorem sort_distantIds : distantIds.ids.sort = [0, 2] := by
  have hzero : ∀ b ∈ ({2} : Finset ℕ), 0 ≤ b := by simp
  have hsort := Finset.sort_insert (· ≤ ·) hzero (by simp)
  rwa [Finset.sort_singleton] at hsort

/-- Neither of the cores is flagged. -/
def adjacentCores : List CpuCoreInfo :=
  [⟨0, -1, -1, 1024, true, false⟩, ⟨1, -1, -1, 1024, true, false⟩]

/-- The only token is `0-1`, of which the second id is lost. -/
theorem not_siblings_decoded_adjacent :
    let tree := siblingTree [cpu0Name, cpu1Name] adjacentIds
    adjacentIds.text = ['0', '-', '1'] ∧ adjacentIds.ShownBy tree ∧
      readThreadSiblings (tree.files 0).threadSiblings = .ok [0] ∧ ¬ adjacentIds.Decoded tree ∧
        discoverCores tree = .ok adjacentCores ∧ ¬ adjacentIds.Flagged adjacentCores := by
  intro tree
  have htext : adjacentIds.text = ['0', '-', '1'] := by
    rw [SiblingIds.text, SiblingIds.runs, sort_adjacentIds]
    decide
  have htree : tree = ⟨some [cpu0Name, cpu1Name],
      fun _ ↦ ⟨none, none, none, none, some ['0', '-', '1', '\n']⟩⟩ := by
    simp only [tree, siblingTree, htext]
    rfl
  have hread : readThreadSiblings (tree.files 0).threadSiblings = .ok [0] := by
    rw [htree]
    rfl
  refine ⟨htext, fun _ _ ↦ rfl, hread, fun hdecoded ↦ ?_, ?_, fun hflagged ↦ ?_⟩
  · have hzero := hdecoded 0 (by simp [adjacentIds])
    rw [sort_adjacentIds] at hzero
    exact absurd (hread.symm.trans hzero) (by decide)
  · rw [htree]
    rfl
  · have hone := hflagged ⟨1, -1, -1, 1024, true, false⟩ (by simp [adjacentCores]) 1
      (by simp [adjacentIds]) rfl
    have hmin := head?_sort adjacentIds.nonempty
    rw [sort_adjacentIds] at hmin
    have hzero : 0 = adjacentIds.ids.min' adjacentIds.nonempty := Option.some.inj hmin
    rw [← hzero] at hone
    exact absurd (hone.mpr (by decide)) (by decide)

def distantCores : List CpuCoreInfo :=
  [⟨0, -1, -1, 1024, true, false⟩, ⟨2, -1, -1, 1024, true, true⟩]

/-- Threads that are numbered apart are decoded. -/
theorem siblings_decoded_distant :
    distantIds.Decoded (siblingTree [cpu0Name, cpu2Name] distantIds) := by
  have htext : distantIds.text = ['0', ',', '2'] := by
    rw [SiblingIds.text, SiblingIds.runs, sort_distantIds]
    decide
  have hcores : discoverCores (siblingTree [cpu0Name, cpu2Name] distantIds) =
      .ok distantCores := by
    rw [siblingTree, htext]
    rfl
  have hlisted : ∀ id ∈ distantIds.ids, ∃ core ∈ distantCores, core.cpuId = Int32.ofNat id := by
    simp [distantIds, distantCores]
  exact ((siblings_decoded_iff distantIds _ _ (fun _ _ ↦ rfl) hcores hlisted).1.mpr
    (by decide)).1

end BetterCpu.Topology
