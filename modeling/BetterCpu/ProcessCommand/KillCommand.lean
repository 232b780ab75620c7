import BetterCpu.ProcessCommand.Grammar
import BetterCpu.ProcessManager.Grouping

/-!
# What a kill command signals

An id denotes one process or all processes of a program, by their places in
the list that the command has collected.  Each of them gets one signal, and no
other process does.
-/

namespace BetterCpu.ProcessCommand

open Text ProcessManager

/-- The processes that an id denotes. -/
inductive Denotes (programs : List ProgramGroup) (idToken : Text) : List Int32 → Prop
  | process {first second : Text} {program : ProgramGroup} {process : ProcessSample}
      (htoken : Separated 'p' idToken first second)
      (hprogram : programs[ofDigits first]? = some program)
      (hprocess : program.processes[ofDigits second]? = some process) :
      Denotes programs idToken [process.pid]
  | program {program : ProgramGroup} (htoken : Digits idToken)
      (hprogram : programs[ofDigits idToken]? = some program) :
      Denotes programs idToken (program.processes.map ProcessSample.pid)

/-- The exit code reports what became of the signals, and that there were any. -/
structure Reports (kill : Int32 → Bool) (outcome : CommandOutcome) (pids : List Int32) :
    Prop where
  signalled : outcome.signalled = pids
  exitCode : outcome.exitCode = 0 ↔ pids ≠ [] ∧ ∀ pid ∈ pids, kill pid = true

/-! ## The two kinds of ids -/

variable {kill : Int32 → Bool} {programs : List ProgramGroup} {idToken : Text}

theorem killProgram_fst (kill : Int32 → Bool) (program : ProgramGroup) :
    (killProgram kill program).1 =
      (program.processes.map ProcessSample.pid).all fun pid ↦ kill pid := by
  have hfold (processes : List ProcessSample) (acc : Bool × List Int32) :
      (processes.foldl (fun acc process ↦
          (acc.1 && kill process.pid, acc.2 ++ [process.pid])) acc).1 =
        (acc.1 && (processes.map ProcessSample.pid).all fun pid ↦ kill pid) := by
    induction processes generalizing acc with
    | nil => simp
    | cons process processes ih => simp [ih, Bool.and_assoc]
  exact hfold program.processes (true, [])

theorem reports_failure (message : Text) : Reports kill (failure message []) [] :=
  ⟨rfl, by simp [failure]⟩

theorem reports_killByProcessId (kill : Int32 → Bool) (programs : List ProgramGroup)
    (idToken : Text) (programId processId : UInt64) :
    Reports kill (killByProcessId kill programs idToken programId processId)
      (processTargets programs programId.toNat processId.toNat) := by
  refine ⟨signalled_killByProcessId _ _ _ _ _, ?_⟩
  unfold killByProcessId processTargets
  split
  · simp [failure]
  · next process hprocess =>
      cases hkill : kill process.pid <;> simp [failure, success, hkill]

theorem reports_killByProgramId (hnonempty : ∀ program ∈ programs, program.processes ≠ [])
    (kill : Int32 → Bool) (idToken : Text) (programId : UInt64) :
    Reports kill (killByProgramId kill programs idToken programId)
      (programTargets programs programId.toNat) := by
  refine ⟨signalled_killByProgramId _ _ _ _, ?_⟩
  unfold killByProgramId programTargets
  split
  · simp [failure]
  · next program hprogram =>
      have hne : program.processes.map ProcessSample.pid ≠ [] := by
        simpa using hnonempty program (List.mem_of_getElem? hprogram)
      have hterminated : (killProgram kill program).1 = true ↔
          ∀ pid ∈ program.processes.map ProcessSample.pid, kill pid = true := by
        rw [killProgram_fst, List.all_eq_true]
      simp only [ne_eq, hne, not_false_eq_true, true_and, ← hterminated]
      cases (killProgram kill program).1 <;> simp [failure, success]

/-! ## The command -/

theorem toNat_of_separated {new : UInt64 × UInt64} {first second first' second' : Text}
    (htoken : Separated 'p' idToken first second) (htoken' : Separated 'p' idToken first' second')
    (hnew : new.1.toNat = ofDigits first' ∧ new.2.toNat = ofDigits second') :
    new.1.toNat = ofDigits first ∧ new.2.toNat = ofDigits second := by
  obtain ⟨rfl, rfl⟩ := htoken.unique isDigit_p htoken'
  exact hnew

variable (kill programs) in
theorem runProcessKillCommand_eq_of_separated (hsmall : SmallRuns idToken) {first second : Text}
    (htoken : Separated 'p' idToken first second) :
    ∃ programId processId : UInt64, programId.toNat = ofDigits first ∧
      processId.toNat = ofDigits second ∧ runProcessKillCommand true kill programs idToken =
        .ok (killByProcessId kill programs idToken programId processId) := by
  obtain ⟨new, ⟨first', second', htoken', hnew⟩, haccepts⟩ :=
    (parses_processId hsmall).accepts ⟨first, second, htoken⟩
  obtain ⟨hfirst, hsecond⟩ := toNat_of_separated htoken htoken' hnew
  refine ⟨new.1, new.2, hfirst, hsecond, ?_⟩
  rw [runProcessKillCommand, haccepts (0, 0)]
  rfl

variable (kill programs) in
theorem runProcessKillCommand_of_separated (hsmall : SmallRuns idToken) {first second : Text}
    (htoken : Separated 'p' idToken first second) :
    ∃ outcome, runProcessKillCommand true kill programs idToken = .ok outcome ∧
      Reports kill outcome (processTargets programs (ofDigits first) (ofDigits second)) := by
  obtain ⟨programId, processId, hfirst, hsecond, hrun⟩ :=
    runProcessKillCommand_eq_of_separated kill programs hsmall htoken
  refine ⟨_, hrun, ?_⟩
  rw [← hfirst, ← hsecond]
  exact reports_killByProcessId _ _ _ _ _

theorem runProcessKillCommand_of_not_separated
    (hnot : ¬ ∃ first second, Separated 'p' idToken first second) :
    runProcessKillCommand true kill programs idToken = do
      let (isProgram, programId) ← parseProgramId idToken 0
      if isProgram then return killByProgramId kill programs idToken programId
      return failure
        ("[!!] invalid id '".toList ++ idToken ++ "', expected format N or NpM".toList) [] := by
  rw [runProcessKillCommand, parseProcessId_eq, (separate_eq_none_iff isDigit_p).mpr hnot]
  rfl

variable (kill programs) in
theorem runProcessKillCommand_eq_of_digits (hsmall : SmallRuns idToken) (htoken : Digits idToken) :
    ∃ programId : UInt64, programId.toNat = ofDigits idToken ∧
      runProcessKillCommand true kill programs idToken =
        .ok (killByProgramId kill programs idToken programId) := by
  have hnot : ¬ ∃ first second, Separated 'p' idToken first second := by
    rintro ⟨first, second, hseparated⟩
    exact not_digits_of_mem isDigit_p (by simp [hseparated.eq]) htoken
  obtain ⟨new, hnew, haccepts⟩ := (parses_programId hsmall).accepts htoken
  refine ⟨new, hnew, ?_⟩
  rw [runProcessKillCommand_of_not_separated hnot, haccepts]
  rfl

variable (kill) in
theorem runProcessKillCommand_of_digits
    (hnonempty : ∀ program ∈ programs, program.processes ≠ []) (hsmall : SmallRuns idToken)
    (htoken : Digits idToken) :
    ∃ outcome, runProcessKillCommand true kill programs idToken = .ok outcome ∧
      Reports kill outcome (programTargets programs (ofDigits idToken)) := by
  obtain ⟨programId, hprogram, hrun⟩ :=
    runProcessKillCommand_eq_of_digits kill programs hsmall htoken
  refine ⟨_, hrun, ?_⟩
  rw [← hprogram]
  exact reports_killByProgramId hnonempty _ _ _

variable (kill programs) in
theorem runProcessKillCommand_of_neither
    (hnot : ¬ ∃ first second, Separated 'p' idToken first second) (hdigits : ¬ Digits idToken) :
    runProcessKillCommand true kill programs idToken = .ok (failure
      ("[!!] invalid id '".toList ++ idToken ++ "', expected format N or NpM".toList) []) := by
  rw [runProcessKillCommand_of_not_separated hnot, parseProgramId_of_not_digits hdigits]
  rfl

/-! ## The targets are what the id denotes -/

theorem processTargets_of_denotes {first second : Text}
    (htoken : Separated 'p' idToken first second) {pids : List Int32}
    (h : Denotes programs idToken pids) :
    processTargets programs (ofDigits first) (ofDigits second) = pids := by
  cases h with
  | process htoken' hprogram hprocess =>
      obtain ⟨rfl, rfl⟩ := htoken.unique isDigit_p htoken'
      simp [processTargets, hprogram, hprocess]
  | program hdigits hprogram =>
      exact absurd hdigits (not_digits_of_mem isDigit_p (by simp [htoken.eq]))

theorem processTargets_of_not_denotes {first second : Text}
    (htoken : Separated 'p' idToken first second)
    (h : ¬ ∃ pids, Denotes programs idToken pids) :
    processTargets programs (ofDigits first) (ofDigits second) = [] := by
  unfold processTargets
  split
  · rfl
  · next process hprocess =>
      obtain ⟨program, hprogram, hprocess⟩ := Option.bind_eq_some_iff.mp hprocess
      exact absurd ⟨_, Denotes.process htoken hprogram hprocess⟩ h

theorem programTargets_of_denotes (htoken : Digits idToken) {pids : List Int32}
    (h : Denotes programs idToken pids) : programTargets programs (ofDigits idToken) = pids := by
  cases h with
  | process htoken' hprogram hprocess =>
      exact absurd htoken (not_digits_of_mem isDigit_p (by simp [htoken'.eq]))
  | program hdigits hprogram => simp [programTargets, hprogram]

theorem programTargets_of_not_denotes (htoken : Digits idToken)
    (h : ¬ ∃ pids, Denotes programs idToken pids) :
    programTargets programs (ofDigits idToken) = [] := by
  unfold programTargets
  split
  · rfl
  · next program hprogram => exact absurd ⟨_, Denotes.program htoken hprogram⟩ h

theorem not_denotes_of_neither (hnot : ¬ ∃ first second, Separated 'p' idToken first second)
    (hdigits : ¬ Digits idToken) {pids : List Int32} : ¬ Denotes programs idToken pids := by
  intro h
  cases h with
  | process htoken _ _ => exact hnot ⟨_, _, htoken⟩
  | program htoken _ => exact hdigits htoken

theorem Denotes.nodup
    (honce : (programs.flatMap fun program ↦ program.processes.map ProcessSample.pid).Nodup)
    {pids : List Int32} (h : Denotes programs idToken pids) : pids.Nodup := by
  cases h with
  | process _ _ _ => exact List.nodup_singleton _
  | program _ hprogram => exact (List.nodup_flatMap.mp honce).1 _ (List.mem_of_getElem? hprogram)

variable (kill) in
/-- What the command signals for an id whose numbers fit: what the id denotes,
or nothing if it does not denote anything. -/
theorem exists_reports (hnonempty : ∀ program ∈ programs, program.processes ≠ [])
    (hsmall : SmallRuns idToken) :
    ∃ outcome, runProcessKillCommand true kill programs idToken = .ok outcome ∧
      Reports kill outcome outcome.signalled ∧
      (∀ pids, Denotes programs idToken pids → outcome.signalled = pids) ∧
      ((¬ ∃ pids, Denotes programs idToken pids) → outcome.signalled = []) := by
  by_cases hseparated : ∃ first second, Separated 'p' idToken first second
  · obtain ⟨first, second, htoken⟩ := hseparated
    obtain ⟨outcome, hrun, hreports⟩ := runProcessKillCommand_of_separated
      kill programs hsmall htoken
    refine ⟨outcome, hrun, by rwa [hreports.signalled], fun pids hpids ↦ ?_, fun hnone ↦ ?_⟩
    · rw [hreports.signalled, processTargets_of_denotes htoken hpids]
    · rw [hreports.signalled, processTargets_of_not_denotes htoken hnone]
  by_cases hdigits : Digits idToken
  · obtain ⟨outcome, hrun, hreports⟩ := runProcessKillCommand_of_digits
      kill hnonempty hsmall hdigits
    refine ⟨outcome, hrun, by rwa [hreports.signalled], fun pids hpids ↦ ?_, fun hnone ↦ ?_⟩
    · rw [hreports.signalled, programTargets_of_denotes hdigits hpids]
    · rw [hreports.signalled, programTargets_of_not_denotes hdigits hnone]
  · exact ⟨_, runProcessKillCommand_of_neither kill programs hseparated hdigits, reports_failure _,
      fun pids hpids ↦ absurd hpids (not_denotes_of_neither hseparated hdigits), fun _ ↦ rfl⟩

/-- The kill command signals exactly what its id denotes in the list that it
has collected, each process once even if some signals fail, and nothing for any
other token; the exit code is 0 if and only if there was a target and all
signals succeeded. -/
theorem kill_command_signals_denoted (round : Arithmetic) (clock : Clock) (s : Sampling)
    (programs : List ProgramGroup) (hprograms : Collects round clock s programs)
    (kill : Int32 → Bool) (idToken : Text) (hsmall : SmallRuns idToken) :
    ∃ outcome, runProcessKillCommand true kill programs idToken = .ok outcome ∧
      (∀ pids, Denotes programs idToken pids → outcome.signalled = pids ∧ pids.Nodup) ∧
      ((¬ ∃ pids, Denotes programs idToken pids) → outcome.signalled = []) ∧
      (outcome.exitCode = 0 ↔ outcome.signalled ≠ [] ∧
        ∀ pid ∈ outcome.signalled, kill pid = true) := by
  have hgrouped := (isOutcome_of_collects hprograms).grouped
  obtain ⟨outcome, hrun, hreports, hdenoted, hother⟩ :=
    exists_reports kill hgrouped.nonempty hsmall
  exact ⟨outcome, hrun, fun pids hpids ↦ ⟨hdenoted pids hpids, hpids.nodup hgrouped.once⟩,
    hother, hreports.exitCode⟩

/-- Two processes of one name that did nothing between the passes. -/
def idlePair : Sampling where
  pids := [7, 9]
  firstTimes _ := some ⟨['a'], 0⟩
  secondTimes _ := some ⟨['a'], 0⟩

def idlePairPrograms : List ProgramGroup :=
  [⟨['a'], 0, [⟨7, ['a'], 0⟩, ⟨9, ['a'], 0⟩]⟩]

theorem collects_idlePair (clock : Clock) : Collects .double clock idlePair idlePairPrograms := by
  have hzero : clock.cpuPercent .double 0 = 0 := by simp [Clock.cpuPercent, double_zero]
  have hsamples : [7, 9].filterMap (processSample .double clock idlePair) =
      [⟨7, ['a'], 0⟩, ⟨9, ['a'], 0⟩] := by
    simp [processSample, idlePair, hzero]
  refine ⟨[7, 9], by decide, idlePairPrograms, ?_, by decide +kernel⟩
  rw [hsamples]
  have hgroups : groupByName .double [⟨7, ['a'], 0⟩, ⟨9, ['a'], 0⟩] = idlePairPrograms := by
    decide +kernel
  rw [hgroups]
  exact .cons ⟨rfl, rfl, by decide +kernel⟩ .nil

theorem kill_command_signals_denoted_sample :
    ∃ outcome, runProcessKillCommand true (fun pid ↦ pid ≠ 7) idlePairPrograms ['0'] =
      .ok outcome ∧ outcome.signalled = [7, 9] := by
  obtain ⟨outcome, hrun, hdenoted, -, -⟩ := kill_command_signals_denoted
    .double ⟨100, 200, by decide, by decide⟩ idlePair idlePairPrograms (collects_idlePair _)
    (fun pid ↦ pid ≠ 7) ['0'] (by decide)
  exact ⟨outcome, hrun, (hdenoted _ (.program (by decide) rfl)).1⟩

end BetterCpu.ProcessCommand
