import BetterCpu.Library.Collect
import BetterCpu.Library.Lines
import BetterCpu.Library.Ranking
import BetterCpu.Library.Search
import BetterCpu.PolicyEngine.Frame

/-!
# The largest consumers of memory

`top_memory_consumers` on the entries of `/proc` and their `status` files.  The
order of the directory and the ties of `std::sort` are not determined, so the
result is a relation.  One without a result is one that throws.
-/

namespace BetterCpu

namespace MemGuard

open Ranking Text

/-- An entry of `/proc` with the content of its `status`, `none` when that
cannot be opened. -/
structure ProcEntry where
  name : Text
  status : Option Text

def nameKey : Text := ['N', 'a', 'm', 'e', ':']
def vmRssKey : Text := ['V', 'm', 'R', 'S', 'S', ':']

/-- One turn of the loop over the lines of a `status` file. -/
def readStatusLine (usage : ProcessMemoryUsage) (line : Text) :
    Except StdException ProcessMemoryUsage :=
  if nameKey.isPrefixOf line then do
    let comm ← substr line 6
    return { usage with comm := comm }
  else if vmRssKey.isPrefixOf line then do
    let rest ← substr line 6
    return { usage with rssKb := ((IStream.ofText rest).uint64 usage.rssKb).1 }
  else return usage

def readStatus (pid : Int32) (status : Text) : Except StdException ProcessMemoryUsage :=
  (getlines '\n' status).foldlM readStatusLine ⟨pid, [], 0⟩

/-- One turn of the loop over the directory; `none` where it continues. -/
def readUsage (entry : ProcEntry) : Except StdException (Option ProcessMemoryUsage) :=
  if !entry.name.head?.any Char.isDigit then return none
  else do
    let pid ← stoi entry.name
    match entry.status with
    | none => return none
    | some status =>
        let usage ← readStatus pid status
        return some usage

def readUsages (entries : List ProcEntry) : Except StdException (List ProcessMemoryUsage) :=
  collect readUsage entries

/-- The size is cast to an `int` for the comparison, and a negative limit is a
length to which nothing can be resized. -/
def truncate? (limit : Int32) (results : List ProcessMemoryUsage) :
    Option (List ProcessMemoryUsage) :=
  if limit < Int32.ofNat results.length then
    if limit < 0 then none else some (results.take limit.toInt.toNat)
  else some results

/-- `top_memory_consumers(limit)` may return `results`; `proc` is the directory,
`none` when it cannot be opened. -/
def TopMemoryConsumers (proc : Option (List ProcEntry)) (limit : Int32)
    (results : List ProcessMemoryUsage) : Prop :=
  match proc with
  | none => results = []
  | some entries =>
      ∃ usages sorted, readUsages entries = .ok usages ∧
        IsRanking (fun usage ↦ usage.rssKb.toNat) usages sorted ∧
          truncate? limit sorted = some results

/-! ## When an exception escapes -/

/-- No line has only the key of the name, and the id fits. -/
def HarmlessEntry (entry : ProcEntry) : Prop :=
  entry.name.head?.any Char.isDigit = true →
    StartsWithInt entry.name ∧
      ∀ status, entry.status = some status → ∀ line ∈ getlines '\n' status, line ≠ nameKey

def HarmlessProc (proc : Option (List ProcEntry)) : Prop :=
  ∀ entries, proc = some entries → ∀ entry ∈ entries, HarmlessEntry entry

theorem substr_returns_iff {t : Text} {position : ℕ} :
    (∃ u, substr t position = .ok u) ↔ position ≤ t.length := by
  unfold substr
  split
  · next hle => exact iff_of_true ⟨_, rfl⟩ hle
  · next hlt => exact iff_of_false (fun ⟨_, h⟩ ↦ (by cases h)) hlt

theorem readStatusLine_returns_iff {usage : ProcessMemoryUsage} {line : Text} :
    (∃ usage', readStatusLine usage line = .ok usage') ↔ line ≠ nameKey := by
  unfold readStatusLine
  split
  · next hname =>
      obtain ⟨rest, rfl⟩ := List.isPrefixOf_iff_prefix.mp hname
      rw [bind_returns_iff]
      have hlength : 6 ≤ (nameKey ++ rest).length ↔ nameKey ++ rest ≠ nameKey := by
        rw [List.length_append, ne_eq, List.append_right_eq_self, ← List.length_eq_zero_iff]
        change 6 ≤ 5 + rest.length ↔ _
        omega
      rw [← hlength, ← substr_returns_iff]
      exact exists_congr fun comm ↦ and_iff_left ⟨_, rfl⟩
  · next hname =>
      have hne : line ≠ nameKey := by
        rintro rfl
        exact hname rfl
      refine iff_of_true ?_ hne
      split
      · next hrss =>
          obtain ⟨rest, rfl⟩ := List.isPrefixOf_iff_prefix.mp hrss
          exact ⟨_, rfl⟩
      · exact ⟨_, rfl⟩

theorem readUsage_returns_iff {entry : ProcEntry} :
    (∃ usage, readUsage entry = .ok usage) ↔ HarmlessEntry entry := by
  unfold readUsage HarmlessEntry
  split
  · next hname => exact iff_of_true ⟨_, rfl⟩ fun hdigit ↦ by simp [hdigit] at hname
  · next hname =>
      rw [forall_prop_of_true (by simpa using hname), bind_returns_iff, ← stoi_returns_iff]
      cases entry.status with
      | none =>
          refine (exists_congr fun pid ↦ and_iff_left ⟨_, rfl⟩).trans (and_iff_left ?_).symm
          simp
      | some status =>
          have hstatus (pid : Int32) :
              (∃ result, (readStatus pid status >>= fun usage ↦ return some usage :
                  Except StdException (Option ProcessMemoryUsage)) = .ok result) ↔
                ∀ line ∈ getlines '\n' status, line ≠ nameKey := by
            rw [bind_returns_iff]
            exact (exists_congr fun usage ↦ and_iff_left ⟨_, rfl⟩).trans
              (foldlM_returns_iff (f := readStatusLine) (p := fun line ↦ line ≠ nameKey)
                (fun _ _ ↦ readStatusLine_returns_iff) _)
          simp only [hstatus, Option.some.injEq, forall_eq', exists_and_right]

/-- A single consumer is found unless an entry throws. -/
theorem topMemoryConsumers_one_returns_iff {proc : Option (List ProcEntry)} :
    (∃ results, TopMemoryConsumers proc 1 results) ↔ HarmlessProc proc := by
  unfold TopMemoryConsumers HarmlessProc
  cases proc with
  | none => exact iff_of_true ⟨_, rfl⟩ (by simp)
  | some entries =>
      have htruncate (sorted : List ProcessMemoryUsage) :
          ∃ results, truncate? 1 sorted = some results := by
        unfold truncate?
        split <;> exact ⟨_, rfl⟩
      simp only [Option.some.injEq, forall_eq', ← readUsage_returns_iff, ← collect_returns_iff]
      constructor
      · rintro ⟨results, usages, sorted, hread, -⟩
        exact ⟨usages, hread⟩
      · rintro ⟨usages, hread⟩
        obtain ⟨sorted, hranking⟩ :=
          exists_isRanking (fun usage : ProcessMemoryUsage ↦ usage.rssKb.toNat) usages
        obtain ⟨results, hresults⟩ := htruncate sorted
        exact ⟨results, usages, sorted, hread, hranking, hresults⟩

/-! ## A table of processes -/

/-- What the kernel shows of a process.  Kernel threads have no line with the
memory; the number in it is padded with blanks, and the other lines are about
something else. -/
structure Process where
  pid : Int32
  comm : Text
  vmRss : Option UInt64
  gap : ℕ
  linesBefore : List Text
  linesAfter : List Text
  pid_pos : 0 < pid.toInt
  comm_line : '\n' ∉ comm
  lines : ∀ line ∈ linesBefore ++ linesAfter,
    '\n' ∉ line ∧ nameKey.isPrefixOf line = false ∧ vmRssKey.isPrefixOf line = false

namespace Process

def usage (process : Process) : ProcessMemoryUsage :=
  ⟨process.pid, process.comm, process.vmRss.getD 0⟩

def vmRssLine (gap : ℕ) (rssKb : UInt64) : Text :=
  vmRssKey ++ '\t' :: (List.replicate gap ' ' ++ (decimal rssKb.toNat ++ [' ', 'k', 'B']))

def statusLines (process : Process) : List Text :=
  (nameKey ++ '\t' :: process.comm) :: process.linesBefore ++
    (process.vmRss.toList.map (vmRssLine process.gap) ++ process.linesAfter)

def entry (process : Process) : ProcEntry :=
  ⟨decimalInt process.pid.toInt, some (process.statusLines.flatMap fun line ↦ line ++ ['\n'])⟩

end Process

/-- An entry of the directory: a process, or something with another name. -/
inductive ProcItem where
  | process (shown : Process)
  | other (entry : ProcEntry) (named : entry.name.head?.any Char.isDigit = false)

def ProcItem.entry : ProcItem → ProcEntry
  | .process shown => shown.entry
  | .other entry _ => entry

def ProcItem.process? : ProcItem → Option Process
  | .process shown => some shown
  | .other _ _ => none

/-- The directory in the order in which it is read; no two processes have the
same id. -/
structure ProcTable where
  items : List ProcItem
  nodup : ((items.filterMap ProcItem.process?).map Process.pid).Nodup

def ProcTable.entries (table : ProcTable) : List ProcEntry :=
  table.items.map ProcItem.entry

def ProcTable.usages (table : ProcTable) : List ProcessMemoryUsage :=
  (table.items.filterMap ProcItem.process?).map Process.usage

/-! ## What is read of a process -/

theorem readStatusLine_of_other {line : Text} (hname : nameKey.isPrefixOf line = false)
    (hrss : vmRssKey.isPrefixOf line = false) (usage : ProcessMemoryUsage) :
    readStatusLine usage line = .ok usage := by
  simp only [readStatusLine, hname, hrss, Bool.false_eq_true, if_false]
  rfl

theorem foldlM_readStatusLine_of_others {lines : List Text}
    (h : ∀ line ∈ lines, nameKey.isPrefixOf line = false ∧ vmRssKey.isPrefixOf line = false)
    (usage : ProcessMemoryUsage) : lines.foldlM readStatusLine usage = .ok usage := by
  induction lines with
  | nil => rfl
  | cons line lines ih =>
      have hline := h line List.mem_cons_self
      rw [List.foldlM_cons, readStatusLine_of_other hline.1 hline.2]
      exact ih fun l hl ↦ h l (List.mem_cons_of_mem _ hl)

theorem readStatusLine_name (usage : ProcessMemoryUsage) (comm : Text) :
    readStatusLine usage (nameKey ++ '\t' :: comm) = .ok { usage with comm := comm } := rfl

theorem readStatusLine_vmRss (usage : ProcessMemoryUsage) (gap : ℕ) (rssKb : UInt64) :
    readStatusLine usage (Process.vmRssLine gap rssKb) = .ok { usage with rssKb := rssKb } := by
  have hname : nameKey.isPrefixOf (Process.vmRssLine gap rssKb) = false := rfl
  have hrss : vmRssKey.isPrefixOf (Process.vmRssLine gap rssKb) = true := rfl
  have hrest : substr (Process.vmRssLine gap rssKb) 6 =
      .ok ('\t' :: (List.replicate gap ' ' ++ (decimal rssKb.toNat ++ [' ', 'k', 'B']))) := rfl
  have hblanks : ∀ c ∈ '\t' :: List.replicate gap ' ', isSpace c = true :=
    List.forall_mem_cons.mpr ⟨rfl, fun c hc ↦ (List.eq_of_mem_replicate hc).symm ▸ isSpace_blank⟩
  have hread := IStream.uint64_of_decimal ('\t' :: List.replicate gap ' ')
    (r := [' ', 'k', 'B']) usage.rssKb rssKb hblanks (by simp [isSpace_blank])
  simp only [readStatusLine, hname, hrss, hrest, Bool.false_eq_true, if_false, if_true]
  have hvalue := congrArg Prod.fst hread
  exact congrArg (fun n ↦ Except.ok { usage with rssKb := n }) hvalue

theorem Process.newline_notMem_statusLines {process : Process} {line : Text}
    (h : line ∈ process.statusLines) : '\n' ∉ line := by
  have hother {l : Text} (hl : l ∈ process.linesBefore ++ process.linesAfter) : '\n' ∉ l :=
    (process.lines l hl).1
  simp only [statusLines, List.cons_append, List.mem_cons, List.mem_append, List.mem_map] at h
  rcases h with rfl | hbefore | ⟨rssKb, -, rfl⟩ | hafter
  · simpa [nameKey] using process.comm_line
  · exact hother (List.mem_append_left _ hbefore)
  · have hdigits : '\n' ∉ decimal rssKb.toNat := notMem_decimal (by decide) _
    simp [vmRssLine, vmRssKey, hdigits]
  · exact hother (List.mem_append_right _ hafter)

theorem readStatus_statusLines (process : Process) :
    readStatus process.pid (process.statusLines.flatMap fun line ↦ line ++ ['\n']) =
      .ok process.usage := by
  have hothers (lines : List Text) (h : ∀ l ∈ lines, l ∈ process.linesBefore ++ process.linesAfter)
      (usage : ProcessMemoryUsage) : lines.foldlM readStatusLine usage = .ok usage :=
    foldlM_readStatusLine_of_others (fun l hl ↦ (process.lines l (h l hl)).2) usage
  have hbefore := hothers process.linesBefore fun l hl ↦ List.mem_append_left _ hl
  have hafter := hothers process.linesAfter fun l hl ↦ List.mem_append_right _ hl
  have hrss (usage : ProcessMemoryUsage) :
      (process.vmRss.toList.map (Process.vmRssLine process.gap)).foldlM readStatusLine usage =
        .ok { usage with rssKb := process.vmRss.getD usage.rssKb } := by
    cases process.vmRss with
    | none => rfl
    | some rssKb =>
        rw [Option.toList_some, List.map_singleton, List.foldlM_cons, readStatusLine_vmRss]
        rfl
  rw [readStatus, getlines_flatMap fun _ ↦ Process.newline_notMem_statusLines,
    Process.statusLines, List.foldlM_append, List.foldlM_cons, readStatusLine_name]
  change ((process.linesBefore.foldlM readStatusLine _ >>= fun usage ↦
    List.foldlM readStatusLine usage _) : Except StdException ProcessMemoryUsage) = _
  rw [hbefore]
  change List.foldlM readStatusLine _ _ = _
  rw [List.foldlM_append, hrss]
  exact hafter _

theorem readUsage_process (process : Process) :
    readUsage process.entry = .ok (some process.usage) := by
  have hpositive : ¬ process.pid.toInt < 0 := not_lt.mpr process.pid_pos.le
  have hdigit : (decimalInt process.pid.toInt).head?.any Char.isDigit = true := by
    obtain ⟨c, ds, hds⟩ := List.exists_cons_of_ne_nil (decimal_ne_nil process.pid.toInt.natAbs)
    have hc : c.isDigit = true :=
      isDigit_of_mem_decimal (n := process.pid.toInt.natAbs) (by simp [hds])
    simp [decimalInt, hpositive, hds, hc]
  have hpid : stoi (decimalInt process.pid.toInt) = .ok process.pid := by
    simpa using stoi_decimalInt process.pid delimited_nil
  simp only [readUsage, Process.entry, hdigit, hpid, Bool.not_true, Bool.false_eq_true, if_false]
  change (readStatus process.pid _ >>= fun usage ↦ pure (some usage)) = _
  rw [readStatus_statusLines]
  rfl

/-- Every process of the table is read as it is, in the order of the directory. -/
theorem readUsages_entries (table : ProcTable) : readUsages table.entries = .ok table.usages := by
  have hitem : ∀ item ∈ table.items,
      readUsage item.entry = .ok (item.process?.map Process.usage) := by
    rintro (shown | ⟨entry, named⟩) -
    · exact readUsage_process shown
    · simp only [ProcItem.entry, readUsage, named, Bool.not_false, if_true]
      rfl
  rw [readUsages, ProcTable.entries, collect_map, collect_eq_ok hitem, ProcTable.usages,
    List.map_filterMap]

/-- The ids are distinct and positive, so that the size of a table is an `int`. -/
theorem ProcTable.length_usages_lt (table : ProcTable) : table.usages.length < 2 ^ 31 := by
  let pids := ((table.items.filterMap ProcItem.process?).map Process.pid).map Int32.toInt
  have hnodup : pids.Nodup := table.nodup.map fun _ _ ↦ Int32.toInt_inj.mp
  have hsubset : pids.toFinset ⊆ Finset.Ioo 0 (2 ^ 31) := by
    intro pid hpid
    obtain ⟨id, hid, rfl⟩ := List.mem_map.mp (List.mem_toFinset.mp hpid)
    obtain ⟨process, -, rfl⟩ := List.mem_map.mp hid
    exact Finset.mem_Ioo.mpr ⟨process.pid_pos, process.pid.toInt_lt⟩
  have hcard := Finset.card_le_card hsubset
  rw [List.toFinset_card_of_nodup hnodup, Int.card_Ioo] at hcard
  simp only [pids, List.length_map] at hcard
  rw [ProcTable.usages, List.length_map]
  omega

theorem truncate?_eq {limit : Int32} (hlimit : 0 ≤ limit.toInt) {results : List ProcessMemoryUsage}
    (hlength : results.length < 2 ^ 31) :
    truncate? limit results = some (results.take limit.toInt.toNat) := by
  have hsize : (Int32.ofNat results.length).toInt = results.length :=
    Int32.toInt_ofNat_of_lt hlength
  have hnonneg : ¬ limit < 0 := by
    rw [Int32.lt_iff_toInt_lt]
    exact not_lt.mpr hlimit
  unfold truncate?
  split
  · rfl
  · next hfits =>
      rw [Int32.lt_iff_toInt_lt, hsize] at hfits
      rw [List.take_of_length_le (by omega)]

/-- The results are the first processes of a ranking of the table. -/
theorem topMemoryConsumers_iff {table : ProcTable} {limit : Int32} (hlimit : 0 ≤ limit.toInt)
    {results : List ProcessMemoryUsage} :
    TopMemoryConsumers (some table.entries) limit results ↔
      ∃ sorted, IsRanking (fun usage ↦ usage.rssKb.toNat) table.usages sorted ∧
        results = sorted.take limit.toInt.toNat := by
  have htruncate {sorted : List ProcessMemoryUsage}
      (h : IsRanking (fun usage ↦ usage.rssKb.toNat) table.usages sorted) :
      truncate? limit sorted = some (sorted.take limit.toInt.toNat) :=
    truncate?_eq hlimit (h.perm.length_eq.trans_lt table.length_usages_lt)
  simp only [TopMemoryConsumers, readUsages_entries]
  constructor
  · rintro ⟨usages, sorted, ⟨⟩, hranking, hresults⟩
    rw [htruncate hranking] at hresults
    exact ⟨sorted, hranking, (Option.some.inj hresults).symm⟩
  · rintro ⟨sorted, hranking, rfl⟩
    exact ⟨table.usages, sorted, rfl, hranking, htruncate hranking⟩

end MemGuard

open MemGuard Ranking

/-- The consumers are the largest ones of the table, each at most as often as it
is there, and under critical pressure the one process that is signalled is among
the largest. -/
theorem termination_victim_largest (table : ProcTable) :
    (∀ limit : Int32, 0 ≤ limit.toInt →
      (∃ results, TopMemoryConsumers (some table.entries) limit results) ∧
        ∀ results, TopMemoryConsumers (some table.entries) limit results →
          results.length = min limit.toInt.toNat table.usages.length ∧
            results.Subperm table.usages ∧
            (results.Pairwise fun x y ↦ y.rssKb ≤ x.rssKb) ∧
            ∀ rest, (results ++ rest).Perm table.usages →
              ∀ x ∈ results, ∀ y ∈ rest, y.rssKb ≤ x.rssKb) ∧
      ∀ (k : Kernel) (input : TickInput) (s : Session),
        MemGuard.classify input.policyPressure = .critical → table.usages ≠ [] →
          TopMemoryConsumers (some table.entries) 1 input.topConsumers →
            ∃ victim ∈ table.usages,
              (s.tick k input).world.signals = s.world.signals ++ [victim.pid] ∧
                ∀ usage ∈ table.usages, usage.rssKb ≤ victim.rssKb := by
  simp only [UInt64.le_iff_toNat_le]
  refine ⟨fun limit hlimit ↦ ⟨?_, fun results hresults ↦ ?_⟩, ?_⟩
  · obtain ⟨sorted, hranking⟩ :=
      exists_isRanking (fun usage : ProcessMemoryUsage ↦ usage.rssKb.toNat) table.usages
    exact ⟨_, (topMemoryConsumers_iff hlimit).mpr ⟨sorted, hranking, rfl⟩⟩
  · obtain ⟨sorted, hranking, rfl⟩ := (topMemoryConsumers_iff hlimit).mp hresults
    exact ⟨hranking.length_take _, hranking.subperm_take _,
      hranking.sorted.sublist (List.take_sublist _ _),
      fun rest hrest x hx y hy ↦ hranking.le_of_left_out hrest hx hy⟩
  · intro k input s hcritical hne hconsumers
    obtain ⟨sorted, hranking, htop⟩ := (topMemoryConsumers_iff (by decide)).mp hconsumers
    cases sorted with
    | nil => exact absurd hranking.perm.symm.eq_nil hne
    | cons victim sorted =>
        have hfront : input.topConsumers = [victim] := htop
        refine ⟨victim, hranking.perm.mem_iff.mp List.mem_cons_self, ?_,
          fun usage husage ↦ hranking.le_head husage⟩
        rw [Action.tick_eq, Action.runAll_signals, tickActions_signals]
        simp [Action.signals, hcritical, hfront]

/-- Two processes with the same memory behind a kernel thread without any. -/
def tiedTable : ProcTable where
  items := [.process ⟨2, ['k'], none, 0, [], [], by decide, by decide, by simp⟩,
    .process ⟨7, ['a'], some 512, 5, [], [], by decide, by decide, by simp⟩,
    .process ⟨5, ['b'], some 512, 5, [], [], by decide, by decide, by simp⟩]
  nodup := by decide

def criticalTick : TickInput where
  pressure := ⟨30, 0, 0⟩
  zones := []
  load := ⟨0, 0, 0⟩
  onlineCores := 0
  thermalZones := []
  policyLoad := ⟨0, 0, 0⟩
  policyOnlineCores := 0
  policyPressure := ⟨30, 0, 0⟩
  topConsumers := [⟨5, ['b'], 512⟩]
  blocks := ⟨[], fun _ ↦ none, fun d ↦ ⟨d, 0, 0, 0, 0, 0, 0⟩⟩

/-- Of the two, `std::sort` may put the second one in front. -/
theorem termination_victim_largest_tied :
    (∃ results, TopMemoryConsumers (some tiedTable.entries) 2 results ∧ results.length = 2) ∧
      ∃ victim ∈ tiedTable.usages,
        (Session.tick .willing criticalTick
          ⟨PolicyEngine.new [], ⟨fun _ ↦ none, [], []⟩⟩).world.signals = [victim.pid] ∧
            ∀ usage ∈ tiedTable.usages, usage.rssKb ≤ victim.rssKb := by
  obtain ⟨hlimit, hvictim⟩ := termination_victim_largest tiedTable
  obtain ⟨⟨results, hresults⟩, hall⟩ := hlimit 2 (by decide)
  have hranking : IsRanking (fun usage : ProcessMemoryUsage ↦ usage.rssKb.toNat) tiedTable.usages
      [⟨5, ['b'], 512⟩, ⟨7, ['a'], 512⟩, ⟨2, ['k'], 0⟩] :=
    ⟨List.reverse_perm tiedTable.usages, by decide⟩
  have hconsumers : TopMemoryConsumers (some tiedTable.entries) 1 criticalTick.topConsumers :=
    (topMemoryConsumers_iff (by decide)).mpr ⟨_, hranking, rfl⟩
  exact ⟨⟨results, hresults, (hall results hresults).1⟩,
    hvictim .willing criticalTick _ (by decide +kernel) (List.cons_ne_nil _ _) hconsumers⟩

end BetterCpu
