import BetterCpu.Library.InputStream
import BetterCpu.ProcessManager

/-!
# The listing and the kill command

The parsers of `bettercpu p` take the values of their output parameters and
return what these hold afterwards.  A signal is a call of `kill` with
`SIGTERM`; whether it succeeds is a predicate on pids.
-/

namespace BetterCpu.ProcessCommand

open Text

structure ProcessListingRange where
  start : UInt64
  stop : UInt64

structure CommandOutcome where
  exitCode : Int32
  stdout : Text
  stderr : Text
  signalled : List Int32
  deriving DecidableEq

/-! ## Listing -/

/-- The programs that `print_process_listing` does not skip, with their index. -/
def displayedPrograms (range : Option ProcessListingRange) (programs : List ProgramGroup) :
    List (ProgramGroup × ℕ) :=
  let (displayStart, displayEnd) :=
    match range with
    | none => (0, if programs = [] then 0 else programs.length - 1)
    | some range => (range.start.toNat, range.stop.toNat)
  programs.zipIdx.filter fun row ↦ !(row.2 < displayStart || displayEnd < row.2)

/-- The label of a program without its brackets. -/
def programToken (programIndex : ℕ) : Text :=
  decimal programIndex

def processToken (programIndex processIndex : ℕ) : Text :=
  decimal programIndex ++ 'p' :: decimal processIndex

/-! ## Parsing -/

def parseProgramId (token : Text) (programId : UInt64) : Except StdException (Bool × UInt64) :=
  if token = [] then return (false, programId)
  else if !token.all Char.isDigit then return (false, programId)
  else do
    let programId ← stoul token
    return (true, programId)

def parseProcessId (token : Text) (programId processId : UInt64) :
    Except StdException (Bool × UInt64 × UInt64) :=
  match token.idxOf? 'p' with
  | none => return (false, programId, processId)
  | some separatorPosition =>
      if separatorPosition = 0 ∨ separatorPosition = token.length - 1 then
        return (false, programId, processId)
      else
        let programToken := token.take separatorPosition
        let processToken := token.drop (separatorPosition + 1)
        if !programToken.all Char.isDigit || !processToken.all Char.isDigit then
          return (false, programId, processId)
        else do
          let programId ← stoul programToken
          let processId ← stoul processToken
          return (true, programId, processId)

def parseListingRange (token : Text) (range : ProcessListingRange) :
    Except StdException (Bool × ProcessListingRange) :=
  match token.idxOf? ':' with
  | none => return (false, range)
  | some separatorPosition =>
      if separatorPosition = 0 ∨ separatorPosition = token.length - 1 then return (false, range)
      else
        let startToken := token.take separatorPosition
        let endToken := token.drop (separatorPosition + 1)
        if !startToken.all Char.isDigit || !endToken.all Char.isDigit then return (false, range)
        else do
          let startValue ← stoul startToken
          let endValue ← stoul endToken
          if endValue < startValue then return (false, range)
          return (true, ⟨startValue, endValue⟩)

/-! ## Killing -/

/-- `ProcessManager::kill_program`, with the pids in the order of the signals. -/
def killProgram (kill : Int32 → Bool) (program : ProgramGroup) : Bool × List Int32 :=
  program.processes.foldl
    (fun (success, signalled) process ↦ (success && kill process.pid, signalled ++ [process.pid]))
    (true, [])

def clrLred : Text := "\x1b[91m".toList
def clrLgreen : Text := "\x1b[92m".toList
def clrReset : Text := "\x1b[0m".toList

def failure (message : Text) (signalled : List Int32) : CommandOutcome :=
  ⟨1, [], clrLred ++ message ++ '\n' :: clrReset, signalled⟩

def success (message : Text) (signalled : List Int32) : CommandOutcome :=
  ⟨0, clrLgreen ++ message ++ '\n' :: clrReset, [], signalled⟩

/-- The branch of `run_process_kill_command` for an id `NpM`. -/
def killByProcessId (kill : Int32 → Bool) (programs : List ProgramGroup) (idToken : Text)
    (programId processId : UInt64) : CommandOutcome :=
  match programs[programId.toNat]?.bind fun program ↦ program.processes[processId.toNat]? with
  | none => failure ("[!!] no process found with id '".toList ++ idToken ++ ['\'']) []
  | some process =>
      let targetPid := process.pid
      if !kill targetPid then
        failure "[!!] could not terminate the requested process".toList [targetPid]
      else success "[OK] process terminated".toList [targetPid]

def killByProgramId (kill : Int32 → Bool) (programs : List ProgramGroup) (idToken : Text)
    (programId : UInt64) : CommandOutcome :=
  match programs[programId.toNat]? with
  | none => failure ("[!!] no program found with id '".toList ++ idToken ++ ['\'']) []
  | some program =>
      let (terminated, signalled) := killProgram kill program
      if !terminated then
        failure "[!!] could not terminate the requested program".toList signalled
      else success "[OK] program terminated".toList signalled

/-- `programs` is what `collect_programs` returns to the command; if it throws, the
command ends with this exception before it looks at the id. -/
def runProcessKillCommand (root : Bool) (kill : Int32 → Bool) (programs : List ProgramGroup)
    (idToken : Text) : Except StdException CommandOutcome := do
  if !root then return failure "[!!] root privileges required".toList []
  let (isProcess, programId, processId) ← parseProcessId idToken 0 0
  if isProcess then return killByProcessId kill programs idToken programId processId
  let (isProgram, programId) ← parseProgramId idToken programId
  if isProgram then return killByProgramId kill programs idToken programId
  return failure
    ("[!!] invalid id '".toList ++ idToken ++ "', expected format N or NpM".toList) []

/-! ## The rows of the listing -/

def InRange : Option ProcessListingRange → ℕ → Prop
  | none, _ => True
  | some range, n => range.start.toNat ≤ n ∧ n ≤ range.stop.toNat

theorem mem_displayedPrograms {range : Option ProcessListingRange}
    {programs : List ProgramGroup} {program : ProgramGroup} {n : ℕ} :
    (program, n) ∈ displayedPrograms range programs ↔
      programs[n]? = some program ∧ InRange range n := by
  cases range with
  | some range => simp [displayedPrograms, InRange, List.mem_zipIdx_iff_getElem?]
  | none =>
      simp only [displayedPrograms, InRange, List.mem_filter, List.mem_zipIdx_iff_getElem?,
        and_true, and_iff_left_iff_imp]
      intro hn
      obtain ⟨hlength, -⟩ := List.getElem?_eq_some_iff.mp hn
      have hne : programs ≠ [] := List.ne_nil_of_length_pos (by omega)
      simp only [hne, if_false, Bool.not_eq_true', Bool.or_eq_false_iff, decide_eq_false_iff_not]
      omega

/-! ## The ids of the listing are read back -/

theorem all_isDigit_decimal (n : ℕ) : (decimal n).all Char.isDigit = true :=
  List.all_eq_true.mpr fun _ hc ↦ isDigit_of_mem_decimal hc

theorem parseProgramId_programToken {n : ℕ} (hn : n < 2 ^ 64) (programId : UInt64) :
    parseProgramId (programToken n) programId = .ok (true, UInt64.ofNat n) := by
  simp [parseProgramId, programToken, decimal_ne_nil, all_isDigit_decimal, stoul_decimal hn]

theorem parseProcessId_programToken (n : ℕ) (programId processId : UInt64) :
    parseProcessId (programToken n) programId processId = .ok (false, programId, processId) := by
  have hnone : (decimal n).idxOf? 'p' = none :=
    List.idxOf?_eq_none_iff.mpr (notMem_decimal (by decide) n)
  simp [parseProcessId, programToken, hnone]
  rfl

theorem idxOf?_processToken (n m : ℕ) :
    (processToken n m).idxOf? 'p' = some (decimal n).length := by
  rw [processToken, List.idxOf?, List.findIdx?_append]
  have hnone : (decimal n).idxOf? 'p' = none :=
    List.idxOf?_eq_none_iff.mpr (notMem_decimal (by decide) n)
  rw [List.idxOf?] at hnone
  simp [hnone, List.findIdx?_cons]

theorem parseProcessId_processToken {n m : ℕ} (hn : n < 2 ^ 64) (hm : m < 2 ^ 64)
    (programId processId : UInt64) :
    parseProcessId (processToken n m) programId processId =
      .ok (true, UInt64.ofNat n, UInt64.ofNat m) := by
  have hlength : (decimal n).length ≠ 0 := by simp [decimal_ne_nil]
  have hlast : (decimal n).length ≠ (processToken n m).length - 1 := by
    have hpos : 0 < (decimal m).length := List.length_pos_of_ne_nil (decimal_ne_nil m)
    simp only [processToken, List.length_append, List.length_cons]
    omega
  have htake : (processToken n m).take (decimal n).length = decimal n := by simp [processToken]
  have hdrop : (processToken n m).drop ((decimal n).length + 1) = decimal m := by
    simp [processToken, ← List.drop_drop]
  simp [parseProcessId, idxOf?_processToken, hlength, hlast, htake, hdrop,
    all_isDigit_decimal, stoul_decimal hn, stoul_decimal hm]
  rfl

/-! ## What a kill command signals -/

def programTargets (programs : List ProgramGroup) (n : ℕ) : List Int32 :=
  match programs[n]? with
  | none => []
  | some program => program.processes.map ProcessSample.pid

def processTargets (programs : List ProgramGroup) (n m : ℕ) : List Int32 :=
  match programs[n]?.bind fun program ↦ program.processes[m]? with
  | none => []
  | some process => [process.pid]

theorem killProgram_snd (kill : Int32 → Bool) (program : ProgramGroup) :
    (killProgram kill program).2 = program.processes.map ProcessSample.pid := by
  have hfold (processes : List ProcessSample) (acc : Bool × List Int32) :
      (processes.foldl (fun acc process ↦
          (acc.1 && kill process.pid, acc.2 ++ [process.pid])) acc).2 =
        acc.2 ++ processes.map ProcessSample.pid := by
    induction processes generalizing acc with
    | nil => simp
    | cons process processes ih => simp [ih]
  exact hfold program.processes (true, [])

theorem signalled_killByProcessId (kill : Int32 → Bool) (programs : List ProgramGroup)
    (idToken : Text) (programId processId : UInt64) :
    (killByProcessId kill programs idToken programId processId).signalled =
      processTargets programs programId.toNat processId.toNat := by
  unfold killByProcessId processTargets
  split
  · rfl
  · dsimp only
    split <;> rfl

theorem signalled_killByProgramId (kill : Int32 → Bool) (programs : List ProgramGroup)
    (idToken : Text) (programId : UInt64) :
    (killByProgramId kill programs idToken programId).signalled =
      programTargets programs programId.toNat := by
  unfold killByProgramId programTargets
  split
  · rfl
  · rw [← killProgram_snd kill]
    dsimp only
    split <;> rfl

theorem runProcessKillCommand_processToken (kill : Int32 → Bool) (programs : List ProgramGroup)
    {n m : ℕ} (hn : n < 2 ^ 64) (hm : m < 2 ^ 64) :
    ∃ outcome, runProcessKillCommand true kill programs (processToken n m) = .ok outcome ∧
      outcome.signalled = processTargets programs n m := by
  refine ⟨killByProcessId kill programs (processToken n m) (UInt64.ofNat n) (UInt64.ofNat m),
    ?_, ?_⟩
  · rw [runProcessKillCommand, parseProcessId_processToken hn hm]
    rfl
  · rw [signalled_killByProcessId, UInt64.toNat_ofNat_of_lt' hn, UInt64.toNat_ofNat_of_lt' hm]

theorem runProcessKillCommand_programToken (kill : Int32 → Bool) (programs : List ProgramGroup)
    {n : ℕ} (hn : n < 2 ^ 64) :
    ∃ outcome, runProcessKillCommand true kill programs (programToken n) = .ok outcome ∧
      outcome.signalled = programTargets programs n := by
  refine ⟨killByProgramId kill programs (programToken n) (UInt64.ofNat n), ?_, ?_⟩
  · simp only [runProcessKillCommand, parseProcessId_programToken, bind, Except.bind,
      parseProgramId_programToken hn, Bool.not_true, Bool.false_eq_true, if_false, if_true]
    rfl
  · rw [signalled_killByProgramId, UInt64.toNat_ofNat_of_lt' hn]

end BetterCpu.ProcessCommand
