import BetterCpu.DaemonControl
import BetterCpu.Library.Run

/-!
# A start and a clean command

The steps of one start command and of one clean command, in any order.  The
clean command looks at the pid file once and removes the state directory in a
later step; the start command writes the pid file last, and in the background
it does not look at the result.
-/

namespace BetterCpu.Clean

open DaemonControl

inductive StartPhase where
  | launched
  | checked
  | created
  | installed
  | saved
  | detached
  | recorded
  | looping
  | exited
  deriving DecidableEq, Repr

inductive CleanPhase where
  | launched
  | checked
  | removed
  | exited
  deriving DecidableEq, Repr

structure Start where
  pid : Int32
  runInForeground : Bool
  phase : StartPhase

structure Directory where
  backupFile : Option Text
  pidFile : Option Text

structure Host where
  start : Start
  clean : CleanPhase
  stateDirectory : Option Directory
  unitFile : Bool
  others : Int32 → Bool

/-- How `remove_all` on the state directory turns out.  One that fails may have
unlinked some of the files before; the flags say which of them it leaves. -/
inductive Removal where
  | all
  | fails (backupFile pidFile : Bool)

/-- A step of the start command, with the result of `install_and_enable` and
the pid that a fork would give; a step of the clean command, with the outcome
of `remove_all`; and a change of the other processes. -/
inductive Event where
  | start (installs : Bool) (child : Option Int32)
  | clean (removal : Removal)
  | processes (others : Int32 → Bool)

namespace Host

def backupFile (s : Host) : Option Text :=
  s.stateDirectory.bind Directory.backupFile

def pidFile (s : Host) : Option Text :=
  s.stateDirectory.bind Directory.pidFile

def alive (s : Host) (pid : Int32) : Bool :=
  s.others pid || s.start.phase != .exited && s.start.pid == pid

def enter (phase : StartPhase) (s : Host) : Host :=
  { s with start := { s.start with phase := phase } }

/-- The steps of `run_start_command`; `backup` is what it saves.  A file in a
directory that is gone cannot be opened.  In the loop a step is a tick, which
does not touch the directory. -/
def startStep (backup : Text) (installs : Bool) (child : Option Int32) (s : Host) : Host :=
  match s.start.phase with
  | .launched => s.enter (if isRunning s.alive s.pidFile then .exited else .checked)
  | .checked =>
      { s.enter .created with stateDirectory := some (s.stateDirectory.getD ⟨none, none⟩) }
  | .created => if installs then { s.enter .installed with unitFile := true } else s.enter .exited
  | .installed =>
      match s.stateDirectory with
      | none => s.enter .exited
      | some d =>
          { s.enter .saved with stateDirectory := some { d with backupFile := some backup } }
  | .saved =>
      if s.start.runInForeground then
        match s.stateDirectory with
        | none => s.enter .exited
        | some d => { s.enter .recorded with
            stateDirectory := some { d with pidFile := some (pidText s.start.pid) } }
      else
        match child with
        | none => s.enter .exited
        | some pid => { s with start := { s.start with pid := pid, phase := .detached } }
  | .detached =>
      { s.enter .recorded with
        stateDirectory := s.stateDirectory.map fun d ↦
          { d with pidFile := some (pidText s.start.pid) } }
  | .recorded => s.enter .looping
  | .looping => s
  | .exited => s

/-- The steps of `run_clean_command`. -/
def cleanStep (removal : Removal) (s : Host) : Host :=
  match s.clean with
  | .launched => { s with clean := if isRunning s.alive s.pidFile then .exited else .checked }
  | .checked =>
      match removal with
      | .all => { s with clean := .removed, stateDirectory := none }
      | .fails backupFile pidFile =>
          { s with
            clean := .exited
            stateDirectory := s.stateDirectory.map fun d ↦
              { backupFile := if backupFile then d.backupFile else none
                pidFile := if pidFile then d.pidFile else none } }
  | .removed => { s with clean := .exited, unitFile := false }
  | .exited => s

def step (backup : Text) : Event → Host → Host
  | .start installs child, s => s.startStep backup installs child
  | .clean removal, s => s.cleanStep removal
  | .processes others, s => { s with others := others }

end Host

/-- A daemon in its loop has its backup, and the pid file names it. -/
def Attached (backup : Text) (s : Host) : Prop :=
  s.start.phase = .looping → s.backupFile = some backup ∧ readPid s.pidFile = s.start.pid

/-- From the save on, the start command relies on the state directory; only in
the foreground does it notice that the directory is gone, and only by writing
the pid file. -/
def Host.exposed (s : Host) : Bool :=
  match s.start.phase with
  | .saved => !s.start.runInForeground
  | .detached | .recorded | .looping => true
  | _ => false

/-- It never notices that the backup is gone from a directory that is there. -/
def Host.needsBackup (s : Host) : Bool :=
  match s.start.phase with
  | .saved | .detached | .recorded | .looping => true
  | _ => false

def Host.needsPidFile (s : Host) : Bool :=
  match s.start.phase with
  | .recorded | .looping => true
  | _ => false

/-- Neither the state directory nor one of its files is removed while the start
command relies on it. -/
def Event.Harmless : Event → Host → Prop
  | .clean .all, s => s.clean = .checked → s.exposed = false
  | .clean (.fails backupFile pidFile), s => s.clean = .checked →
      (s.needsBackup = true → backupFile = true) ∧ (s.needsPidFile = true → pidFile = true)
  | _, _ => True

/-! ## The invariant -/

def Sound (backup : Text) (s : Host) : Prop :=
  match s.start.phase with
  | .saved => s.start.runInForeground = true ∧ s.stateDirectory = none ∨
      s.backupFile = some backup
  | .detached => s.backupFile = some backup
  | .recorded | .looping =>
      s.backupFile = some backup ∧ s.pidFile = some (pidText s.start.pid)
  | _ => True

variable {backup : Text}

theorem Sound.startStep {s : Host} (installs : Bool) (child : Option Int32)
    (h : Sound backup s) : Sound backup (s.startStep backup installs child) := by
  obtain ⟨⟨pid, runInForeground, phase⟩, clean, stateDirectory, unitFile, others⟩ := s
  cases phase with
  | launched =>
      simp only [Host.startStep, Host.enter]
      split <;> trivial
  | checked => trivial
  | created => cases installs <;> trivial
  | installed =>
      cases stateDirectory with
      | none => trivial
      | some d => exact Or.inr rfl
  | saved =>
      cases runInForeground with
      | true =>
          cases stateDirectory with
          | none => trivial
          | some d =>
              rcases h with ⟨-, hgone⟩ | hbackup
              · cases hgone
              · exact ⟨hbackup, rfl⟩
      | false =>
          cases child with
          | none => trivial
          | some child =>
              rcases h with ⟨hforeground, -⟩ | hbackup
              · cases hforeground
              · exact hbackup
  | detached =>
      cases stateDirectory with
      | none => cases h
      | some d => exact ⟨h, rfl⟩
  | recorded | looping => exact h
  | exited => trivial

theorem Sound.cleanStep {s : Host} (removal : Removal) (h : Sound backup s)
    (hharmless : (Event.clean removal).Harmless s) : Sound backup (s.cleanStep removal) := by
  obtain ⟨⟨pid, runInForeground, phase⟩, clean, stateDirectory, unitFile, others⟩ := s
  cases clean with
  | checked =>
      cases removal with
      | fails backupFile pidFile =>
          obtain ⟨hbackup, hpidFile⟩ := hharmless rfl
          cases stateDirectory with
          | none => exact h
          | some d =>
              -- what is relied on is left
              cases phase with
              | saved =>
                  obtain rfl := hbackup rfl
                  rcases h with ⟨-, hgone⟩ | hsaved
                  · cases hgone
                  · exact Or.inr hsaved
              | detached =>
                  obtain rfl := hbackup rfl
                  exact h
              | recorded | looping =>
                  obtain rfl := hbackup rfl
                  obtain rfl := hpidFile rfl
                  exact h
              | _ => trivial
      | all =>
          have hexposed := hharmless rfl
          cases phase with
          | saved =>
              cases runInForeground with
              | true => exact Or.inl ⟨rfl, rfl⟩
              | false => cases hexposed
          | detached | recorded | looping => cases hexposed
          | _ => trivial
  | _ => exact h

theorem Sound.step (event : Event) (s : Host) (h : Sound backup s)
    (hharmless : event.Harmless s) : Sound backup (Host.step backup event s) := by
  cases event with
  | start installs child => exact h.startStep installs child
  | clean removal => exact h.cleanStep removal hharmless
  | processes others => exact h

/-! ## Removals that are not harmless -/

theorem not_attached_of_backupFile_eq_none {s : Host} (hlooping : s.start.phase = .looping)
    (hbackup : s.backupFile = none) : ¬ Attached backup s := by
  intro h
  cases hbackup.symm.trans (h hlooping).1

theorem not_attached_of_pidFile_eq_none {s : Host} (hlooping : s.start.phase = .looping)
    (hpidFile : s.pidFile = none) (hpid : 0 < s.start.pid) : ¬ Attached backup s := by
  intro h
  have hnamed := (h hlooping).2
  rw [hpidFile] at hnamed
  rw [← hnamed] at hpid
  exact absurd hpid (by decide)

/-- Any other removal strands the daemon: the rest of the start command brings it
into its loop without a backup or without the pid file. -/
theorem stranded_of_not_harmless {s : Host} {removal : Removal}
    (hharmful : ¬ (Event.clean removal).Harmless s) (hpid : 0 < s.start.pid)
    (hdirectory : s.stateDirectory.isSome = true) (child : Int32) :
    ∃ n, ¬ Attached backup (Run.exec (Host.step backup)
      (.clean removal :: List.replicate n (.start true (some child))) s) := by
  obtain ⟨⟨pid, runInForeground, phase⟩, clean, stateDirectory, unitFile, others⟩ := s
  have hchecked : clean = .checked := by
    by_contra hne
    apply hharmful
    cases removal with
    | all => exact fun h ↦ absurd h hne
    | fails backupFile pidFile => exact fun h ↦ absurd h hne
  subst hchecked
  obtain ⟨d, rfl⟩ := Option.isSome_iff_exists.mp hdirectory
  cases removal with
  | all =>
      have hexposed : Host.exposed ⟨⟨pid, runInForeground, phase⟩, .checked, some d,
          unitFile, others⟩ = true := by
        by_contra hnot
        exact hharmful fun _ ↦ Bool.eq_false_iff.mpr hnot
      cases phase with
      | saved =>
          cases runInForeground with
          | true => cases hexposed
          | false => exact ⟨3, not_attached_of_backupFile_eq_none rfl rfl⟩
      | detached => exact ⟨2, not_attached_of_backupFile_eq_none rfl rfl⟩
      | recorded => exact ⟨1, not_attached_of_backupFile_eq_none rfl rfl⟩
      | looping => exact ⟨0, not_attached_of_backupFile_eq_none rfl rfl⟩
      | _ => cases hexposed
  | fails backupFile pidFile =>
      cases backupFile with
      | false =>
          cases phase with
          | saved =>
              cases runInForeground with
              | true => exact ⟨2, not_attached_of_backupFile_eq_none rfl rfl⟩
              | false => exact ⟨3, not_attached_of_backupFile_eq_none rfl rfl⟩
          | detached => exact ⟨2, not_attached_of_backupFile_eq_none rfl rfl⟩
          | recorded => exact ⟨1, not_attached_of_backupFile_eq_none rfl rfl⟩
          | looping => exact ⟨0, not_attached_of_backupFile_eq_none rfl rfl⟩
          | _ => exact absurd (fun _ ↦ ⟨nofun, nofun⟩) hharmful
      | true =>
          cases pidFile with
          | true => exact absurd (fun _ ↦ ⟨fun _ ↦ rfl, fun _ ↦ rfl⟩) hharmful
          | false =>
              cases phase with
              | recorded => exact ⟨1, not_attached_of_pidFile_eq_none rfl rfl hpid⟩
              | looping => exact ⟨0, not_attached_of_pidFile_eq_none rfl rfl hpid⟩
              | _ => exact absurd (fun _ ↦ ⟨fun _ ↦ rfl, nofun⟩) hharmful

/-! ## Every interleaving -/

def launch (pid : Int32) (runInForeground : Bool) (stateDirectory : Option Directory)
    (unitFile : Bool) (others : Int32 → Bool) : Host :=
  ⟨⟨pid, runInForeground, .launched⟩, .launched, stateDirectory, unitFile, others⟩

end BetterCpu.Clean
