import BetterCpu.Library.Collect
import BetterCpu.ProcessManager.StatLine

/-!
# The processes behind `/proc`

`collect_programs` from the names in the directory and the files of the
processes.  On what the kernel shows, no exception escapes, and the two passes
read the processes as they are.
-/

namespace BetterCpu.ProcessManager

open Text

/-! ## The directory -/

/-- One turn of the loop of `list_pids`; `none` where it continues. -/
def listPid (name : Text) : Except StdException (Option Int32) :=
  if !name.head?.any Char.isDigit then return none
  else do
    let pid ← stoi name
    return some pid

/-- `list_pids`; `names` are those in the directory, `none` when it cannot be
opened. -/
def listPids (names : Option (List Text)) : Except StdException (List Int32) :=
  match names with
  | none => return []
  | some names => collect listPid names

/-- What one call of `collect_programs` finds. -/
structure ProcFiles where
  names : Option (List Text)
  firstStat : Int32 → Option Text
  secondStat : Int32 → Option Text

/-- `collect_programs` may return `programs`; without a result an exception
escapes. -/
def ProcFiles.Collects (round : Arithmetic) (clock : Clock) (files : ProcFiles)
    (programs : List ProgramGroup) : Prop :=
  ∃ pids, listPids files.names = .ok pids ∧
    StatSampling.Collects round clock ⟨pids, files.firstStat, files.secondStat⟩ programs

/-! ## What the kernel shows -/

/-- What `/proc/<pid>/stat` is made from.  The command may have any characters
but line breaks. -/
structure KernelProcess where
  comm : Text
  state : Char
  fields : List ℤ
  utime : UInt64
  stime : UInt64
  further : List Text
  comm_line : '\n' ∉ comm
  state_isAlpha : state.isAlpha = true
  length_fields : fields.length = 10
  further_plain : ∀ field ∈ further, ')' ∉ field ∧ '\n' ∉ field

namespace KernelProcess

variable (process : KernelProcess)

def stat (pid : Int32) : Text :=
  statLine pid process.comm process.state process.fields process.utime process.stime
    process.further

def times : ProcessTimes :=
  ⟨process.comm, process.utime + process.stime⟩

theorem readProcessTimes_stat (pid : Int32) :
    readProcessTimes (some (process.stat pid)) = .ok (some process.times) := by
  have hline := bracketed_statLine pid process.comm_line process.state_isAlpha process.fields
    process.utime process.stime process.further_plain
  have hremainder : substr (behindName process.state process.fields process.utime process.stime
      process.further) 1 = .ok (behindName process.state process.fields process.utime
        process.stime process.further).tail := by
    simp [substr, behindName]
  have hticks := readTicks_fields [process.state] process.length_fields process.utime
    process.stime (words (process.further.flatMap fun field ↦ ' ' :: field))
  rw [← words_behindName (isSpace_of_isAlpha process.state_isAlpha)] at hticks
  rw [readProcessTimes, stat, hline.parseStatLine_eq, hremainder]
  simp only [bind, Except.bind, hticks]
  rfl

end KernelProcess

/-- A name in the directory: a process, or something else. -/
inductive ProcName where
  | process (pid : Int32) (pid_pos : 0 < pid.toInt)
  | other (name : Text) (named : name.head?.any Char.isDigit = false)

def ProcName.text : ProcName → Text
  | .process pid _ => decimalInt pid.toInt
  | .other name _ => name

def ProcName.pid? : ProcName → Option Int32
  | .process pid _ => some pid
  | .other _ _ => none

/-- The directory in the order in which it is read, and the processes at the two
passes.  Between them a process may end, and its id may be that of another. -/
structure KernelProcesses where
  names : List ProcName
  first : Int32 → Option KernelProcess
  second : Int32 → Option KernelProcess

namespace KernelProcesses

variable (proc : KernelProcesses)

def pids : List Int32 :=
  proc.names.filterMap ProcName.pid?

def files : ProcFiles where
  names := some (proc.names.map ProcName.text)
  firstStat pid := (proc.first pid).map fun process ↦ process.stat pid
  secondStat pid := (proc.second pid).map fun process ↦ process.stat pid

def sampling : Sampling where
  pids := proc.pids
  firstTimes pid := (proc.first pid).map KernelProcess.times
  secondTimes pid := (proc.second pid).map KernelProcess.times

/-- The process is there in both passes and has not fewer ticks in the second. -/
structure Counted (pid : Int32) (before after : KernelProcess) : Prop where
  listed : pid ∈ proc.pids
  first : proc.first pid = some before
  second : proc.second pid = some after
  le : before.times.totalTicks ≤ after.times.totalTicks

/-! ## The two passes -/

theorem listPid_text (name : ProcName) : listPid name.text = .ok name.pid? := by
  cases name with
  | other name named =>
      simp only [ProcName.text, listPid, named, Bool.not_false, if_true]
      rfl
  | process pid pid_pos =>
      have hpositive : ¬ pid.toInt < 0 := not_lt.mpr pid_pos.le
      have hdigit : (decimalInt pid.toInt).head?.any Char.isDigit = true := by
        obtain ⟨c, ds, hds⟩ := List.exists_cons_of_ne_nil (decimal_ne_nil pid.toInt.natAbs)
        have hc : c.isDigit = true := isDigit_of_mem_decimal (n := pid.toInt.natAbs) (by simp [hds])
        simp [decimalInt, hpositive, hds, hc]
      have hpid : stoi (decimalInt pid.toInt) = .ok pid := by
        simpa using stoi_decimalInt pid delimited_nil
      simp only [ProcName.text, listPid, hdigit, hpid, Bool.not_true, Bool.false_eq_true, if_false]
      rfl

theorem listPids_names : listPids proc.files.names = .ok proc.pids := by
  change collect listPid (proc.names.map ProcName.text) = _
  rw [collect_map]
  exact collect_eq_ok fun name _ ↦ listPid_text name

theorem readProcessTimes_map (process : Option KernelProcess) (pid : Int32) :
    readProcessTimes (process.map fun process ↦ process.stat pid) =
      .ok (process.map KernelProcess.times) := by
  cases process with
  | none => rfl
  | some process => exact process.readProcessTimes_stat pid

theorem reads_sampling :
    StatSampling.Reads ⟨proc.pids, proc.files.firstStat, proc.files.secondStat⟩ proc.sampling :=
  ⟨rfl, fun pid _ ↦ readProcessTimes_map (proc.first pid) pid,
    fun pid _ _ ↦ readProcessTimes_map (proc.second pid) pid⟩

variable {proc} {round : Arithmetic} {clock : Clock} {programs : List ProgramGroup}

theorem exists_collects : ∃ programs, proc.files.Collects round clock programs := by
  obtain ⟨programs, hprograms⟩ := StatSampling.exists_collects_iff.mpr ⟨_, proc.reads_sampling⟩
  exact ⟨programs, proc.pids, proc.listPids_names, hprograms⟩

/-- A sampling that is read has the counted processes. -/
theorem counted_iff_of_reads {s : Sampling}
    (h : StatSampling.Reads ⟨proc.pids, proc.files.firstStat, proc.files.secondStat⟩ s)
    {pid : Int32} {first second : ProcessTimes} :
    ProcessManager.Counted s pid first second ↔ ∃ before after,
      proc.Counted pid before after ∧ first = before.times ∧ second = after.times := by
  have hfirst (hpid : pid ∈ proc.pids) :
      s.firstTimes pid = (proc.first pid).map KernelProcess.times := by
    have hread := h.firstTimes pid hpid
    rw [files, readProcessTimes_map] at hread
    exact (Except.ok.inj hread).symm
  have hsecond (hpid : pid ∈ proc.pids) (hvalid : s.firstTimes pid ≠ none) :
      s.secondTimes pid = (proc.second pid).map KernelProcess.times := by
    have hread := h.secondTimes pid hpid hvalid
    rw [files, readProcessTimes_map] at hread
    exact (Except.ok.inj hread).symm
  constructor
  · rintro ⟨hlisted, hfirstTimes, hsecondTimes, hle⟩
    rw [h.pids] at hlisted
    have hvalid : s.firstTimes pid ≠ none := by
      rw [hfirstTimes]
      exact Option.some_ne_none first
    rw [hsecond hlisted hvalid, Option.map_eq_some_iff] at hsecondTimes
    rw [hfirst hlisted, Option.map_eq_some_iff] at hfirstTimes
    obtain ⟨before, hbefore, rfl⟩ := hfirstTimes
    obtain ⟨after, hafter, rfl⟩ := hsecondTimes
    exact ⟨before, after, ⟨hlisted, hbefore, hafter, hle⟩, rfl, rfl⟩
  · rintro ⟨before, after, ⟨hlisted, hbefore, hafter, hle⟩, rfl, rfl⟩
    have hfirstTimes : s.firstTimes pid = some before.times := by rw [hfirst hlisted, hbefore]; rfl
    have hvalid : s.firstTimes pid ≠ none := by
      rw [hfirstTimes]
      exact Option.some_ne_none _
    have hsecondTimes : s.secondTimes pid = some after.times := by
      rw [hsecond hlisted hvalid, hafter]
      rfl
    exact ⟨h.pids ▸ hlisted, hfirstTimes, hsecondTimes, hle⟩

/-- The programs are a partition of the counted processes. -/
theorem exists_grouped (h : proc.files.Collects round clock programs) :
    ∃ s, Grouped s programs ∧ ∀ pid first second,
      ProcessManager.Counted s pid first second ↔ ∃ before after,
        proc.Counted pid before after ∧ first = before.times ∧ second = after.times := by
  obtain ⟨pids, hpids, s, hreads, hcollects⟩ := h
  rw [proc.listPids_names] at hpids
  cases hpids
  exact ⟨s, (isOutcome_of_collects hcollects).grouped, fun _ _ _ ↦ counted_iff_of_reads hreads⟩

/-- The names of the programs are those of the counted processes. -/
theorem exists_program_iff (h : proc.files.Collects round clock programs) {comm : Text} :
    (∃ program ∈ programs, program.name = comm) ↔
      ∃ pid before after, proc.Counted pid before after ∧ after.comm = comm := by
  obtain ⟨s, hgrouped, hcounted⟩ := exists_grouped h
  constructor
  · rintro ⟨program, hprogram, rfl⟩
    obtain ⟨process, hprocess⟩ :=
      List.exists_mem_of_ne_nil _ (hgrouped.nonempty program hprogram)
    obtain ⟨first, second, hsample, hname, -⟩ :=
      hgrouped.counted program hprogram process hprocess
    obtain ⟨before, after, hprocess, -, rfl⟩ := (hcounted _ _ _).mp hsample
    exact ⟨process.pid, before, after, hprocess, hname⟩
  · rintro ⟨pid, before, after, hprocess, rfl⟩
    obtain ⟨program, hprogram, hname, -⟩ :=
      hgrouped.occurs pid _ _ ((hcounted _ _ _).mpr ⟨before, after, hprocess, rfl, rfl⟩)
    exact ⟨program, hprogram, hname⟩

end KernelProcesses
end BetterCpu.ProcessManager
