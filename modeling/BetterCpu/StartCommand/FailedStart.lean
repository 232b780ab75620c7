import BetterCpu.StartCommand.Launch

/-!
# What a failed start leaves behind

The start command writes the unit file, enables the unit and saves the backup
before the last step that may fail, and no early return takes any of it back.
A failed start leaves everything as it was exactly when the steps that were
taken have changed nothing.
-/

namespace BetterCpu

open Text

namespace StartAnswers

variable (answers : StartAnswers) (unitText backupText : Text)

/-- What the steps up to the failing one write was there before. -/
def Undisturbed (s : Traces) : StartStep → Prop
  | .openUnit => True
  | .writeUnit | .daemonReload => s.unitFile = some (answers.unitFile.written unitText)
  | .enable | .openBackup =>
      s.unitFile = some (answers.unitFile.written unitText) ∧ s.enabled = answers.enabledAfter
  | .writeBackup | .fork | .writePidFile =>
      s.unitFile = some (answers.unitFile.written unitText) ∧
        s.enabled = answers.enabledAfter ∧
          s.backupFile = some (answers.backupFile.written backupText)

theorem leaves_eq_iff (s : Traces) (step : StartStep) :
    answers.leaves unitText backupText s step = s ↔
      answers.Undisturbed unitText backupText s step := by
  obtain ⟨unitFile, enabled, backupFile⟩ := s
  cases step <;> simp [leaves, Undisturbed, eq_comm]

end StartAnswers

/-- A start that returns one leaves the unit file, its enablement and the backup
as they were if and only if the steps up to the failing one found them so. -/
theorem failed_start_traceless_iff (answers : StartAnswers) (executablePath : Text)
    (runInForeground : Bool) (captured : SystemStateBackup) (s : Traces) :
    let unitText := (SystemdPersistence.unitPieces executablePath).flatten
    let backupText := StateBackup.save captured
    ((runStartCommand answers executablePath runInForeground captured s).1 = .returnsOne →
        (runStartCommand answers executablePath runInForeground captured s).2 = s) ↔
      ∀ step, answers.failingStep unitText backupText runInForeground = some step →
        answers.Undisturbed unitText backupText s step := by
  intro unitText backupText
  rw [runStartCommand_eq]
  cases hstep : answers.failingStep unitText backupText runInForeground with
  | none => simp [unitText, backupText]
  | some step =>
      simp only [unitText, backupText, true_imp_iff, Option.some.injEq, forall_eq']
      exact answers.leaves_eq_iff unitText backupText s step

/-- A backup that cannot be opened. -/
def closedBackup : Destination :=
  { fullDisk with opens := false }

/-- The command gives up on the backup and leaves an enabled unit. -/
theorem not_failed_start_traceless_closedBackup :
    ¬ ((runStartCommand (smoothAnswers closedBackup) [] false oneDisk ⟨none, false, none⟩).1 =
        .returnsOne →
      (runStartCommand (smoothAnswers closedBackup) [] false oneDisk ⟨none, false, none⟩).2 =
        ⟨none, false, none⟩) := by
  decide +kernel

end BetterCpu
