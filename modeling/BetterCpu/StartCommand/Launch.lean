import BetterCpu.Library.OutputStream
import BetterCpu.StartCommand

/-!
# The start command up to the engine

What `run_start_command` does behind the confirmation: it writes and enables
the unit, saves the captured state, and goes to the background or writes the
pid file.  The first of these that fails ends the command.
`StateBackup::save` returns `good()` while the end of the text is still in the
buffer, so the engine may start on a backup that the close has cut short.
-/

namespace BetterCpu

open Text

/-! ## Saving the backup -/

namespace StateBackup

/-- What one turn of the loop over the cores inserts. -/
def cpuPieces (state : CpuFreqState) : List Text :=
  [decimalInt state.cpuId.toInt, [' '], state.governor, [' '],
    decimal state.minFreqKhz.toNat, [' '], decimal state.maxFreqKhz.toNat, [' '],
    eppToken state.eppValue, ['\n']]

def schedulerPieces (entry : Text × Text) : List Text :=
  [entry.1, [' '], entry.2, ['\n']]

/-- What `StateBackup::save` inserts into its stream, in this order. -/
def savePieces (state : SystemStateBackup) : List Text :=
  [decimalInt state.swappiness.toInt, ['\n'], decimalInt state.vfsCachePressure.toInt, ['\n'],
    decimalInt state.dirtyRatio.toInt, ['\n'],
    decimalInt state.dirtyBackgroundRatio.toInt, ['\n'],
    decimal state.cpuFreqStates.length, ['\n']] ++
    (state.cpuFreqStates.flatMap cpuPieces ++
      ([decimal state.ioSchedulers.length, ['\n']] ++
        state.ioSchedulers.flatMap schedulerPieces))

/-- `StateBackup::save` with the stream it writes to: the result, and what the
file holds afterwards. -/
def saveToFile (file : Destination) (state : SystemStateBackup) (before : Option Text) :
    Bool × Option Text :=
  file.writeFile (savePieces state) before

theorem flatten_flatMap {α : Type*} (pieces : α → List Text) (text : α → Text)
    (h : ∀ a, (pieces a).flatten = text a) (xs : List α) :
    (xs.flatMap pieces).flatten = xs.flatMap text := by
  induction xs with
  | nil => rfl
  | cons x xs ih => simp only [List.flatMap_cons, List.flatten_append, h, ih]

theorem flatten_savePieces (state : SystemStateBackup) :
    (savePieces state).flatten = save state := by
  have hcpus := flatten_flatMap cpuPieces saveCpu
    (fun cpu ↦ by simp [cpuPieces, saveCpu]) state.cpuFreqStates
  have hschedulers := flatten_flatMap schedulerPieces saveScheduler
    (fun entry ↦ by simp [schedulerPieces, saveScheduler]) state.ioSchedulers
  simp only [savePieces, save, saveInt, List.flatten_append, hcpus, hschedulers]
  simp

end StateBackup

/-! ## The unit -/

/-- What the command reads and leaves behind besides the pid file: the unit
file, whether the unit is enabled, and the backup. -/
structure Traces where
  unitFile : Option Text
  enabled : Bool
  backupFile : Option Text
  deriving DecidableEq

/-- How the steps of the command turn out.  `daemonReload` and `enable` say
whether `systemctl` exits with zero, `enabledAfter` whether the unit is enabled
once `systemctl enable` has run; `daemonized` and `pidFileWritten` are what
`daemonize` and `write_pid_file` return. -/
structure StartAnswers where
  unitFile : Destination
  daemonReload : Bool
  enable : Bool
  enabledAfter : Bool
  backupFile : Destination
  daemonized : Bool
  pidFileWritten : Bool

namespace SystemdPersistence

def unitPieces (executablePath : Text) : List Text :=
  ["[Unit]\n".toList, "Description=bettercpu adaptive tuning daemon\n".toList,
    "After=multi-user.target\n".toList, ['\n'], "[Service]\n".toList, "Type=simple\n".toList,
    "ExecStart=".toList, executablePath, " --boot start\n".toList,
    "ExecStop=".toList, executablePath, " stop\n".toList, ['\n'],
    "[Install]\n".toList, "WantedBy=multi-user.target\n".toList]

/-- `close()` follows the check of `good()`, and its failure goes unnoticed. -/
def installAndEnable (answers : StartAnswers) (executablePath : Text) (s : Traces) :
    Bool × Traces :=
  let (good, unitFile) := answers.unitFile.writeFile (unitPieces executablePath) s.unitFile
  let s := { s with unitFile := unitFile }
  if !good then (false, s)
  else if !answers.daemonReload then (false, s)
  else (answers.enable, { s with enabled := answers.enabledAfter })

end SystemdPersistence

/-! ## The command -/

/-- The command returns one, or calls `PolicyEngine::run` and returns zero once
the engine has stopped. -/
inductive StartOutcome where
  | returnsOne
  | tunes
  deriving DecidableEq

/-- `run_start_command` behind the confirmation, for the state that
`capture_current_state` finds. -/
def runStartCommand (answers : StartAnswers) (executablePath : Text) (runInForeground : Bool)
    (captured : SystemStateBackup) (s : Traces) : StartOutcome × Traces :=
  let (installed, s) := SystemdPersistence.installAndEnable answers executablePath s
  if !installed then (.returnsOne, s)
  else
    let (saved, backupFile) := StateBackup.saveToFile answers.backupFile captured s.backupFile
    let s := { s with backupFile := backupFile }
    if !saved then (.returnsOne, s)
    else if runInForeground then
      if !answers.pidFileWritten then (.returnsOne, s) else (.tunes, s)
    else if !answers.daemonized then (.returnsOne, s)
    else (.tunes, s)

theorem SystemdPersistence.backupFile_installAndEnable (answers : StartAnswers)
    (executablePath : Text) (s : Traces) :
    (installAndEnable answers executablePath s).2.backupFile = s.backupFile := by
  unfold installAndEnable
  dsimp only
  split
  · rfl
  split
  · rfl
  · rfl

/-- Behind the installation and the save, only `daemonize` makes the command
return in the background. -/
theorem returnsOne_iff_not_daemonized {answers : StartAnswers} {executablePath : Text}
    {captured : SystemStateBackup} {s : Traces}
    (hinstalled : (SystemdPersistence.installAndEnable answers executablePath s).1 = true)
    (hsaved : (StateBackup.saveToFile answers.backupFile captured s.backupFile).1 = true) :
    (runStartCommand answers executablePath false captured s).1 = .returnsOne ↔
      answers.daemonized = false := by
  rw [← SystemdPersistence.backupFile_installAndEnable answers executablePath s] at hsaved
  simp only [runStartCommand, hinstalled, hsaved, Bool.not_true, Bool.false_eq_true, if_false]
  cases answers.daemonized with
  | true => simp
  | false => simp

/-! ## The step that fails -/

/-- The steps of `run_start_command` that may fail, in their order. -/
inductive StartStep where
  | openUnit
  | writeUnit
  | daemonReload
  | enable
  | openBackup
  | writeBackup
  | fork
  | writePidFile
  deriving DecidableEq

namespace StartAnswers

variable (answers : StartAnswers) (unitText backupText : Text)

/-- The step at which the command gives up. -/
def failingStep (runInForeground : Bool) : Option StartStep :=
  if !answers.unitFile.opens then some .openUnit
  else if ¬ answers.unitFile.TakesBlocks unitText then some .writeUnit
  else if !answers.daemonReload then some .daemonReload
  else if !answers.enable then some .enable
  else if !answers.backupFile.opens then some .openBackup
  else if ¬ answers.backupFile.TakesBlocks backupText then some .writeBackup
  else if runInForeground then if !answers.pidFileWritten then some .writePidFile else none
  else if !answers.daemonized then some .fork
  else none

theorem failingStep_eq_none_iff {runInForeground : Bool} :
    answers.failingStep unitText backupText runInForeground = none ↔
      (answers.unitFile.opens = true ∧ answers.unitFile.TakesBlocks unitText) ∧
        (answers.daemonReload = true ∧ answers.enable = true) ∧
          (answers.backupFile.opens = true ∧ answers.backupFile.TakesBlocks backupText) ∧
            (if runInForeground then answers.pidFileWritten else answers.daemonized) = true := by
  unfold failingStep
  grind

/-- What is left behind when the command gives up at the step. -/
def leaves (s : Traces) : StartStep → Traces
  | .openUnit => s
  | .writeUnit | .daemonReload => { s with unitFile := some (answers.unitFile.written unitText) }
  | .enable | .openBackup =>
      { s with
        unitFile := some (answers.unitFile.written unitText)
        enabled := answers.enabledAfter }
  | .writeBackup | .fork | .writePidFile =>
      ⟨some (answers.unitFile.written unitText), answers.enabledAfter,
        some (answers.backupFile.written backupText)⟩

end StartAnswers

/-- The command gives up at the first step that fails, with what the steps up
to it have written; without one it comes to the engine with the backup that
the save has left. -/
theorem runStartCommand_eq (answers : StartAnswers) (executablePath : Text)
    (runInForeground : Bool) (captured : SystemStateBackup) (s : Traces) :
    let unitText := (SystemdPersistence.unitPieces executablePath).flatten
    let backupText := StateBackup.save captured
    runStartCommand answers executablePath runInForeground captured s =
      match answers.failingStep unitText backupText runInForeground with
      | some step => (.returnsOne, answers.leaves unitText backupText s step)
      | none => (.tunes, ⟨some (answers.unitFile.written unitText), answers.enabledAfter,
          some (answers.backupFile.written backupText)⟩) := by
  intro unitText backupText
  simp only [runStartCommand, SystemdPersistence.installAndEnable, StateBackup.saveToFile,
    Destination.writeFile_eq, StateBackup.flatten_savePieces, StartAnswers.failingStep]
  by_cases hopens : answers.unitFile.opens = true
  · by_cases hblocks : answers.unitFile.TakesBlocks unitText
    · by_cases hreload : answers.daemonReload = true
      · by_cases henable : answers.enable = true
        · by_cases hbackup : answers.backupFile.opens = true
          · by_cases hsaved : answers.backupFile.TakesBlocks backupText
            · cases runInForeground with
              | true =>
                  by_cases hpid : answers.pidFileWritten = true <;>
                    simp [hopens, hblocks, hreload, henable, hbackup, hsaved, hpid, unitText,
                      backupText, StartAnswers.leaves]
              | false =>
                  by_cases hfork : answers.daemonized = true <;>
                    simp [hopens, hblocks, hreload, henable, hbackup, hsaved, hfork, unitText,
                      backupText, StartAnswers.leaves]
            · simp [hopens, hblocks, hreload, henable, hbackup, hsaved, unitText, backupText,
                StartAnswers.leaves]
          · simp [hopens, hblocks, hreload, henable, hbackup, unitText, StartAnswers.leaves]
        · simp [hopens, hblocks, hreload, henable, unitText, StartAnswers.leaves]
      · simp [hopens, hblocks, hreload, unitText, StartAnswers.leaves]
    · simp [hopens, hblocks, unitText, StartAnswers.leaves]
  · simp [hopens, StartAnswers.leaves]

/-! ## Tuning only on a complete backup -/

theorem StateBackup.saveToFile_eq (file : Destination) (captured : SystemStateBackup)
    (before : Option Text) :
    saveToFile file captured before =
      if file.opens then
        (decide (file.TakesBlocks (save captured)), some (file.written (save captured)))
      else (false, before) := by
  rw [saveToFile, Destination.writeFile_eq, flatten_savePieces]

/-- Whether the result of writing the text can be relied on: the file does not
open, or the write of some full buffer fails, or the write at the close takes
what is left in the buffer. -/
def Destination.Reliable (file : Destination) (t : Text) : Prop :=
  file.opens = false ∨ ¬ file.TakesBlocks t ∨ file.TakesRemainder t

theorem saveToFile_complete_iff (file : Destination) (captured : SystemStateBackup)
    (before : Option Text) :
    ((StateBackup.saveToFile file captured before).1 = true →
        (StateBackup.saveToFile file captured before).2 = some (StateBackup.save captured)) ↔
      file.Reliable (StateBackup.save captured) := by
  rw [← StateBackup.flatten_savePieces]
  exact file.writeFile_complete_iff _ before

/-- The engine starts only after a save that returned true, and finds the file
that the save has left. -/
theorem saved_of_tunes {answers : StartAnswers} {executablePath : Text}
    {runInForeground : Bool} {captured : SystemStateBackup} {s : Traces}
    (h : (runStartCommand answers executablePath runInForeground captured s).1 = .tunes) :
    StateBackup.saveToFile answers.backupFile captured s.backupFile =
      (true,
        (runStartCommand answers executablePath runInForeground captured s).2.backupFile) := by
  rw [runStartCommand_eq] at h ⊢
  rw [StateBackup.saveToFile_eq]
  cases hstep : answers.failingStep (SystemdPersistence.unitPieces executablePath).flatten
      (StateBackup.save captured) runInForeground with
  | some step => simp [hstep] at h
  | none =>
      obtain ⟨-, -, ⟨hopens, hblocks⟩, -⟩ :=
        (StartAnswers.failingStep_eq_none_iff _ _ _).mp hstep
      simp [hopens, hblocks]

/-- A start at which nothing fails but the backup. -/
def smoothAnswers (file : Destination) : StartAnswers where
  unitFile := ⟨true, 1, Nat.one_pos, fun _ _ ↦ 1⟩
  daemonReload := true
  enable := true
  enabledAfter := true
  backupFile := file
  daemonized := true
  pidFileWritten := true

theorem tunes_smoothAnswers {file : Destination} {captured : SystemStateBackup}
    {before : Option Text} (h : (StateBackup.saveToFile file captured before).1 = true)
    (executablePath : Text) (runInForeground : Bool) (s : Traces) :
    (runStartCommand (smoothAnswers file) executablePath runInForeground captured s).1 =
      .tunes := by
  rw [StateBackup.saveToFile_eq] at h
  obtain ⟨hopens, hblocks⟩ : file.opens = true ∧ file.TakesBlocks (StateBackup.save captured) := by
    by_cases hopens : file.opens = true
    · exact ⟨hopens, by simpa [hopens] using h⟩
    · simp [hopens] at h
  have hunit : (smoothAnswers file).unitFile.TakesBlocks
      (SystemdPersistence.unitPieces executablePath).flatten := fun _ _ ↦ le_rfl
  have hstep : (smoothAnswers file).failingStep
      (SystemdPersistence.unitPieces executablePath).flatten (StateBackup.save captured)
        runInForeground = none := by
    rw [StartAnswers.failingStep_eq_none_iff]
    exact ⟨⟨rfl, hunit⟩, ⟨rfl, rfl⟩, ⟨hopens, hblocks⟩, by cases runInForeground <;> rfl⟩
  rw [runStartCommand_eq]
  simp only [hstep]

/-- A true result of the save stands for a complete backup, and so does the
start of the engine, if and only if a failing write is seen before the close
or the close fails on nothing. -/
theorem tunes_on_complete_backup_iff (file : Destination) (captured : SystemStateBackup) :
    ((∀ before, (StateBackup.saveToFile file captured before).1 = true →
          (StateBackup.saveToFile file captured before).2 = some (StateBackup.save captured)) ↔
        file.Reliable (StateBackup.save captured)) ∧
      ((∀ answers executablePath runInForeground s, answers.backupFile = file →
          (runStartCommand answers executablePath runInForeground captured s).1 = .tunes →
            (runStartCommand answers executablePath runInForeground captured s).2.backupFile =
              some (StateBackup.save captured)) ↔
        file.Reliable (StateBackup.save captured)) := by
  refine ⟨?_, ?_, ?_⟩
  · simp only [saveToFile_complete_iff, forall_const]
  · intro hstart
    rw [← saveToFile_complete_iff file captured none]
    intro hsaved
    have htunes := tunes_smoothAnswers hsaved [] true ⟨none, false, none⟩
    have hfile := hstart (smoothAnswers file) [] true ⟨none, false, none⟩ rfl htunes
    have hsame := saved_of_tunes htunes
    rw [hfile] at hsame
    exact congrArg Prod.snd hsame
  · rintro hreliable answers executablePath runInForeground s rfl htunes
    have hcomplete := (saveToFile_complete_iff _ captured s.backupFile).mpr hreliable
    rw [saved_of_tunes htunes] at hcomplete
    exact hcomplete rfl

/-- A file system without room, and a buffer that the backup fits into. -/
def fullDisk : Destination := ⟨true, 8192, by decide, fun _ _ ↦ 0⟩

def oneDisk : SystemStateBackup :=
  ⟨[], 60, 100, 20, 10, [(['s', 'd', 'a'], ['n', 'o', 'n', 'e'])]⟩

theorem not_complete_backup_fullDisk :
    let saved := StateBackup.saveToFile fullDisk oneDisk none
    let result := runStartCommand (smoothAnswers fullDisk) [] true oneDisk ⟨none, false, none⟩
    ¬ (saved.1 = true → saved.2 = some (StateBackup.save oneDisk)) ∧
      ¬ (result.1 = .tunes → result.2.backupFile = some (StateBackup.save oneDisk)) := by
  decide +kernel

end BetterCpu
