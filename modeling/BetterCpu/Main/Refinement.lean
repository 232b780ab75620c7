import BetterCpu.Main

/-!
# The program as a service

When nothing fails, the calls of the program are the commands of a service: a
daemon that runs or is stopping, and a unit.  The commands know the daemon by its
pid file alone, which names it until the daemon has restored the settings and
ended, some time after the signal.
-/

namespace BetterCpu.Main

open DaemonControl Persistence ProcessCommand Text

/-! ## The service -/

/-- The daemon, and whether it has been signalled. -/
structure Daemon where
  pid : Pid
  stopping : Bool
  deriving DecidableEq

/-- `SIGTERM` is sent to the processes `pids`. -/
def Daemon.receive (pids : List Int32) (daemon : Daemon) : Daemon :=
  { daemon with stopping := daemon.stopping || pids.contains daemon.pid.val }

structure Service where
  daemon : Option Daemon
  installed : Bool
  enabled : Bool
  deriving DecidableEq

namespace Service

/-- There is at most one daemon; a new one comes with an enabled unit. -/
def start (pid : Pid) (confirmed : Bool) (s : Service) : Service :=
  if s.daemon.isSome then s
  else if confirmed then ⟨some ⟨pid, false⟩, true, true⟩
  else s

def signal (pids : List Int32) (s : Service) : Service :=
  { s with daemon := s.daemon.map (Daemon.receive pids) }

def stop (s : Service) : Service :=
  match s.daemon with
  | none => s
  | some daemon => { s with daemon := some { daemon with stopping := true }, enabled := false }

def clean (s : Service) : Service :=
  if s.daemon.isSome then s else ⟨none, false, false⟩

/-- A daemon that is stopping has come to its end. -/
def ends (s : Service) : Service :=
  if s.daemon.any Daemon.stopping then { s with daemon := none } else s

/-- The signal 0 reaches the daemon as long as it has not ended. -/
def alive (others : Int32 → Bool) (s : Service) (pid : Int32) : Bool :=
  others pid || s.daemon.any fun daemon ↦ daemon.pid.val == pid

/-- A daemon that nobody has signalled has its unit enabled, and an enabled unit
is installed. -/
structure Sound (s : Service) : Prop where
  running : ∀ daemon ∈ s.daemon, daemon.stopping = false → s.enabled = true
  installed : s.enabled = true → s.installed = true

end Service

/-! ## Calls on one machine -/

/-- The files of the program and the daemon that is alive. -/
structure System where
  files : Files
  daemon : Option Daemon

def System.view (s : System) : Service where
  daemon := s.daemon
  installed := s.files.traces.unitFile.isSome
  enabled := s.files.traces.enabled

/-- Everything that the commands try succeeds. -/
structure Smooth (c : Circumstances) : Prop where
  root : c.root = true
  unitFile : c.answers.unitFile.opens = true ∧ c.answers.unitFile.TakesBlocks
    (SystemdPersistence.unitPieces (executablePath c.resolvedPath)).flatten
  systemctl : c.answers.daemonReload = true ∧ c.answers.enable = true ∧
    c.answers.enabledAfter = true
  backupFile : c.answers.backupFile.opens = true ∧
    c.answers.backupFile.TakesBlocks (StateBackup.save c.captured)
  daemonized : c.forks = true ∧ c.answers.daemonized = true ∧ c.answers.pidFileWritten = true
  disable : c.enabledAfterDisable = false
  removal : c.removal = .all
  unitRemoved : c.unitRemoved = true ∧ c.daemonReload = true

/-- A call by root; who else is alive is found when it comes to its turn, and
`pid` is the process that would enter the loop. -/
structure Call where
  argv : List Text
  others : Int32 → Bool
  pid : Pid
  found : Circumstances
  smooth : Smooth found

/-- A signal reaches a process exactly if it is alive. -/
def System.circumstances (s : System) (call : Call) : Circumstances :=
  let alive := s.view.alive call.others
  { call.found with alive := alive, kill := alive, pid := call.pid.val }

/-- Whether a command comes to the loop of the engine. -/
def enters (c : Circumstances) (argv : List Text) (s : Files) : Bool :=
  match parseArguments argv with
  | .start _ runInForeground =>
      c.root && confirms c argv && !isRunning c.alive s.pidFile &&
        (runStartCommand c.answers (executablePath c.resolvedPath) runInForeground c.captured
          s.traces).1 == .tunes
  | _ => false

/-- What happens to the machine: a call, `SIGTERM` from somewhere else, and the
end of a daemon that has been signalled, which may take its time. -/
inductive Occurrence where
  | call (call : Call)
  | signal (pid : Int32)
  | daemonEnds

def System.receive (pids : List Int32) (s : System) : System :=
  { s with daemon := s.daemon.map (Daemon.receive pids) }

/-- A call is over before the next one begins, a start when its daemon has the pid
file and its handlers. -/
def System.step (version : Text) : Occurrence → System → System
  | .call call, s =>
      let c := s.circumstances call
      let (outcome, files) := run version c call.argv s.files
      let daemon := if enters c call.argv s.files then some ⟨call.pid, false⟩ else s.daemon
      ({ files := files, daemon := daemon } : System).receive (signalled outcome)
  | .signal pid, s => s.receive [pid]
  | .daemonEnds, s =>
      if s.daemon.any Daemon.stopping then ⟨{ s.files with pidFile := none }, none⟩ else s

/-- What the service makes of a command. -/
def Service.execute (call : Call) (s : Service) : Command → Service
  | .start skipConfirmation _ => s.start call.pid
      (skipConfirmation || call.found.response = ['y'] || call.found.response = ['Y'])
  | .stop => s.stop
  | .clean => s.clean
  | .process options => s.signal (signalled
      (runProcessCommand true (s.alive call.others) call.found.programs options))
  | _ => s

def Service.step : Occurrence → Service → Service
  | .call call, s => s.execute call (parseArguments call.argv)
  | .signal pid, s => s.signal [pid]
  | .daemonEnds, s => s.ends

/-- The pid file names the daemon, and there is none without one. -/
def System.Named (s : System) : Prop :=
  s.files.pidFile = s.daemon.map fun daemon ↦ pidText daemon.pid.val

/-! ## The commands when nothing fails -/

variable {version : Text} {call : Call} {s : System} {c : Circumstances} {files : Files}

theorem Smooth.runStartCommand_eq (h : Smooth c) (runInForeground : Bool) (traces : Traces) :
    ∃ unitText backupText, runStartCommand c.answers (executablePath c.resolvedPath)
      runInForeground c.captured traces = (.tunes, ⟨some unitText, true, some backupText⟩) := by
  have hstep : c.answers.failingStep
      (SystemdPersistence.unitPieces (executablePath c.resolvedPath)).flatten
      (StateBackup.save c.captured) runInForeground = none := by
    rw [StartAnswers.failingStep_eq_none_iff]
    refine ⟨h.unitFile, ⟨h.systemctl.1, h.systemctl.2.1⟩, h.backupFile, ?_⟩
    cases runInForeground
    · exact h.daemonized.2.1
    · exact h.daemonized.2.2
  have hrun := BetterCpu.runStartCommand_eq c.answers (executablePath c.resolvedPath)
    runInForeground c.captured traces
  simp only [hstep, h.systemctl.2.2] at hrun
  exact ⟨_, _, hrun⟩

theorem signalled_start (skipConfirmation runInForeground : Bool) :
    (start c skipConfirmation runInForeground files).1.signalled = [] := by
  unfold start
  split
  · rfl
  split
  · rfl
  dsimp only
  split
  · rfl
  split
  · dsimp only
    split_ifs <;> rfl
  · rfl

theorem signalled_status : (status c files).signalled = [] := by
  unfold status
  split
  · rfl
  split
  · rfl
  · rfl

theorem start_of_smooth (h : Smooth c) (skipConfirmation runInForeground : Bool) (files : Files) :
    ∃ unitText backupText, (start c skipConfirmation runInForeground files).2 =
      if isRunning c.alive files.pidFile then files
      else if skipConfirmation || c.response = ['y'] || c.response = ['Y'] then
        ⟨⟨some unitText, true, some backupText⟩, some (pidText c.pid)⟩
      else files := by
  obtain ⟨unitText, backupText, hrun⟩ := h.runStartCommand_eq runInForeground files.traces
  refine ⟨unitText, backupText, ?_⟩
  by_cases hrunning : isRunning c.alive files.pidFile = true
  · simp [start, h.root, hrunning]
  · by_cases hconfirms : (skipConfirmation || c.response = ['y'] || c.response = ['Y']) = true
    · have hasks : (!skipConfirmation && c.response ≠ ['y'] && c.response ≠ ['Y']) = false := by
        cases skipConfirmation <;> simp_all [imp_iff_not_or]
      simp only [start, h.root, hrunning, hasks, hrun, hconfirms, h.daemonized.2.2, Bool.not_true,
        Bool.false_eq_true, if_false, if_true]
    · rw [if_neg hrunning, if_neg hconfirms]
      exact start_of_not_confirmed runInForeground (Bool.eq_false_iff.mpr hconfirms)

theorem smooth_circumstances (s : System) (call : Call) : Smooth (s.circumstances call) :=
  ⟨call.smooth.root, call.smooth.unitFile, call.smooth.systemctl, call.smooth.backupFile,
    call.smooth.daemonized, call.smooth.disable, call.smooth.removal, call.smooth.unitRemoved⟩

theorem receive_nil (s : System) : s.receive [] = s := by
  have hsame : Daemon.receive [] = id := by
    funext daemon
    simp [Daemon.receive]
  rw [System.receive, hsame, Option.map_id_fun, id]

theorem System.Named.receive (h : s.Named) (pids : List Int32) : (s.receive pids).Named := by
  rw [Named, System.receive, Option.map_map]
  exact h

/-- What the commands find out by the pid file. -/
theorem System.Named.isRunning_eq (h : s.Named) (call : Call) :
    isRunning (s.circumstances call).alive s.files.pidFile = s.daemon.isSome := by
  rw [h]
  cases hdaemon : s.daemon with
  | none => exact isRunning_none _
  | some daemon =>
      rw [Option.map_some, isRunning_pidText daemon.pid.2]
      simp [System.circumstances, Service.alive, System.view, hdaemon]

theorem stopTarget_of_isRunning {alive : Int32 → Bool} {pidFile : Option Text}
    (h : isRunning alive pidFile = true) : stopTarget alive pidFile = some (readPid pidFile) := by
  unfold isRunning at h
  dsimp only at h
  split at h
  · cases h
  · next hpositive => rw [stopTarget, if_neg hpositive, if_pos h]

theorem enters_of_parse {command : Command} (hparse : parseArguments call.argv = command)
    (hstart : ∀ skipConfirmation runInForeground,
      command ≠ .start skipConfirmation runInForeground) :
    enters c call.argv files = false := by
  rw [enters, hparse]
  split
  · next skipConfirmation runInForeground => exact absurd rfl (hstart _ _)
  · rfl

theorem step_of_run {outcome : Except StdException CommandOutcome} {files : Files}
    (hrun : run version (s.circumstances call) call.argv s.files = (outcome, files))
    (henters : enters (s.circumstances call) call.argv s.files = false) :
    s.step version (.call call) = (⟨files, s.daemon⟩ : System).receive (signalled outcome) := by
  rw [System.step]
  simp only [hrun, henters]
  rfl

/-! ## One call -/

theorem System.Named.enters_of_start (h : s.Named) {skipConfirmation runInForeground : Bool}
    (hparse : parseArguments call.argv = .start skipConfirmation runInForeground) :
    enters (s.circumstances call) call.argv s.files =
      ((skipConfirmation || call.found.response = ['y'] || call.found.response = ['Y']) &&
        !s.daemon.isSome) := by
  have hsmooth := smooth_circumstances s call
  obtain ⟨unitText, backupText, hrun⟩ := hsmooth.runStartCommand_eq runInForeground s.files.traces
  have htunes : ((StartOutcome.tunes, (⟨some unitText, true, some backupText⟩ : Traces)).1 ==
      StartOutcome.tunes) = true := rfl
  rw [enters, confirms, hparse]
  dsimp only
  rw [hrun, hsmooth.root, htunes, h.isRunning_eq, Bool.true_and, Bool.and_true]
  rfl

theorem System.Named.step_start (h : s.Named) {skipConfirmation runInForeground : Bool}
    (hparse : parseArguments call.argv = .start skipConfirmation runInForeground) :
    (s.step version (.call call)).view = s.view.execute call (parseArguments call.argv) ∧
      (s.step version (.call call)).Named := by
  obtain ⟨unitText, backupText, hstart⟩ :=
    start_of_smooth (smooth_circumstances s call) skipConfirmation runInForeground s.files
  have hstep : s.step version (.call call) =
      { files := (start (s.circumstances call) skipConfirmation runInForeground s.files).2
        daemon := if enters (s.circumstances call) call.argv s.files then some ⟨call.pid, false⟩
          else s.daemon } := by
    have hrun : run version (s.circumstances call) call.argv s.files =
        (.ok (start (s.circumstances call) skipConfirmation runInForeground s.files).1,
          (start (s.circumstances call) skipConfirmation runInForeground s.files).2) := by
      rw [run, hparse]
    rw [System.step]
    simp only [hrun, signalled, signalled_start, receive_nil]
  have hresponse : (s.circumstances call).response = call.found.response := rfl
  rw [hstep, hstart, h.enters_of_start hparse, h.isRunning_eq, hresponse, hparse, Service.execute]
  generalize (skipConfirmation || decide (call.found.response = ['y']) ||
    decide (call.found.response = ['Y'])) = confirmed
  cases hdaemon : s.daemon with
  | some daemon =>
      simp only [Option.isSome_some, if_true, Bool.not_true, Bool.and_false, Bool.false_eq_true,
        if_false]
      refine ⟨?_, ?_⟩
      · simp [System.view, Service.start, hdaemon]
      · rw [System.Named, ← hdaemon]
        exact h
  | none =>
      simp only [Option.isSome_none, Bool.false_eq_true, if_false, Bool.not_false, Bool.and_true]
      cases confirmed with
      | false =>
          refine ⟨?_, ?_⟩
          · simp [System.view, Service.start, hdaemon]
          · rw [System.Named, if_neg Bool.false_ne_true, if_neg Bool.false_ne_true, ← hdaemon]
            exact h
      | true =>
          refine ⟨?_, rfl⟩
          simp [System.view, Service.start, hdaemon]

theorem System.Named.step_stop (h : s.Named) (hparse : parseArguments call.argv = .stop) :
    (s.step version (.call call)).view = s.view.execute call (parseArguments call.argv) ∧
      (s.step version (.call call)).Named := by
  have hsmooth := smooth_circumstances s call
  have henters : enters (s.circumstances call) call.argv s.files = false :=
    enters_of_parse hparse nofun
  have hrun : run version (s.circumstances call) call.argv s.files =
      (.ok (stop (s.circumstances call) s.files).1, (stop (s.circumstances call) s.files).2) := by
    rw [run, hparse]
  have hrunning := h.isRunning_eq call
  rw [step_of_run hrun henters, hparse, Service.execute]
  cases hdaemon : s.daemon with
  | none =>
      have hstop : stop (s.circumstances call) s.files =
          (ProcessCommand.failure "[!!] bettercpu is not running".toList [], s.files) := by
        rw [hdaemon, Option.isSome_none] at hrunning
        simp [stop, hsmooth.root, hrunning]
      rw [hstop]
      refine ⟨?_, ?_⟩
      · simp [System.receive, System.view, Service.stop, hdaemon]
      · refine Named.receive (s := ⟨s.files, none⟩) ?_ _
        rw [Named, ← hdaemon]
        exact h
  | some daemon =>
      rw [hdaemon, Option.isSome_some] at hrunning
      have hread : readPid s.files.pidFile = daemon.pid.val := by
        rw [h, hdaemon, Option.map_some, readPid_pidText]
      have hstop : stop (s.circumstances call) s.files =
          (⟨0, coloured clrLyellow
              "[OK] stop signal sent, original settings will be restored".toList, [],
              [daemon.pid.val]⟩,
            { s.files with traces := { s.files.traces with enabled := false } }) := by
        have htarget : stopTarget (s.circumstances call).kill s.files.pidFile =
            some (readPid s.files.pidFile) := stopTarget_of_isRunning hrunning
        simp only [stop, hsmooth.root, hrunning, htarget, hsmooth.disable, hread, Bool.not_true,
          Bool.false_eq_true, if_false, Option.isNone_some]
      rw [hstop]
      refine ⟨?_, ?_⟩
      · simp [System.receive, System.view, Service.stop, hdaemon, signalled, Daemon.receive]
      · refine Named.receive (s := ⟨_, some daemon⟩) ?_ _
        rw [Named, ← hdaemon]
        exact h

theorem System.Named.step_clean (h : s.Named) (hparse : parseArguments call.argv = .clean) :
    (s.step version (.call call)).view = s.view.execute call (parseArguments call.argv) ∧
      (s.step version (.call call)).Named := by
  have hsmooth := smooth_circumstances s call
  have henters : enters (s.circumstances call) call.argv s.files = false :=
    enters_of_parse hparse nofun
  have hrun : run version (s.circumstances call) call.argv s.files =
      (.ok (clean (s.circumstances call) s.files).1, (clean (s.circumstances call) s.files).2) := by
    rw [run, hparse]
  have hrunning := h.isRunning_eq call
  rw [step_of_run hrun henters, hparse, Service.execute]
  cases hdaemon : s.daemon with
  | some daemon =>
      rw [hdaemon, Option.isSome_some] at hrunning
      have hclean : (clean (s.circumstances call) s.files).1.signalled = [] ∧
          (clean (s.circumstances call) s.files).2 = s.files := by
        rw [clean, hsmooth.root, hrunning]
        exact ⟨rfl, rfl⟩
      rw [signalled, hclean.1, hclean.2, receive_nil]
      refine ⟨?_, ?_⟩
      · simp [System.view, Service.clean, hdaemon]
      · rw [Named, ← hdaemon]
        exact h
  | none =>
      rw [hdaemon, Option.isSome_none] at hrunning
      have hclean : clean (s.circumstances call) s.files =
          (success "[OK] all generated files removed".toList [], ⟨⟨none, false, none⟩, none⟩) := by
        simp only [clean, hsmooth.root, hrunning, hsmooth.removal, hsmooth.unitRemoved,
          hsmooth.disable, Bool.not_true, Bool.false_eq_true, if_false, if_true, Bool.or_self]
      rw [hclean]
      refine ⟨?_, rfl⟩
      simp [System.receive, System.view, Service.clean, hdaemon]

theorem System.Named.step_process (h : s.Named) {options : List Text}
    (hparse : parseArguments call.argv = .process options) :
    (s.step version (.call call)).view = s.view.execute call (parseArguments call.argv) ∧
      (s.step version (.call call)).Named := by
  have henters : enters (s.circumstances call) call.argv s.files = false :=
    enters_of_parse hparse nofun
  have hrun : run version (s.circumstances call) call.argv s.files =
      (runProcessCommand true (s.view.alive call.others) call.found.programs options,
        s.files) := by
    rw [run, hparse, (smooth_circumstances s call).root]
    rfl
  rw [step_of_run hrun henters, hparse]
  exact ⟨rfl, h.receive _⟩

/-- One occurrence on the machine is one step of the service. -/
theorem System.Named.step (h : s.Named) (version : Text) (occurrence : Occurrence) :
    (s.step version occurrence).view = s.view.step occurrence ∧
      (s.step version occurrence).Named := by
  cases occurrence with
  | signal pid => exact ⟨rfl, h.receive [pid]⟩
  | daemonEnds =>
      simp only [System.step, Service.step, Service.ends]
      split
      · next hstopping =>
          rw [if_pos (show s.view.daemon.any Daemon.stopping = true from hstopping)]
          exact ⟨rfl, rfl⟩
      · next hrunning =>
          rw [if_neg (show ¬ s.view.daemon.any Daemon.stopping = true from hrunning)]
          exact ⟨rfl, h⟩
  | call call =>
      have hidle {command : Command} (hparse : parseArguments call.argv = command)
          (hcommand : command = .help ∨ command = .version ∨ command = .status ∨
            ∃ name, command = .unknown name) :
          (s.step version (.call call)).view = s.view.execute call (parseArguments call.argv) ∧
            (s.step version (.call call)).Named := by
        have hrun : ∃ outcome, run version (s.circumstances call) call.argv s.files =
            (.ok outcome, s.files) ∧ outcome.signalled = [] := by
          rw [run, hparse]
          rcases hcommand with rfl | rfl | rfl | ⟨name, rfl⟩
          · exact ⟨_, rfl, rfl⟩
          · exact ⟨_, rfl, rfl⟩
          · exact ⟨_, rfl, signalled_status⟩
          · exact ⟨_, rfl, rfl⟩
        obtain ⟨outcome, hrun, hquiet⟩ := hrun
        have henters : enters (s.circumstances call) call.argv s.files = false :=
          enters_of_parse hparse fun _ _ ↦ by
            rcases hcommand with rfl | rfl | rfl | ⟨name, rfl⟩ <;> exact Command.noConfusion
        rw [step_of_run hrun henters, signalled, hquiet, receive_nil, hparse]
        refine ⟨?_, h⟩
        rcases hcommand with rfl | rfl | rfl | ⟨name, rfl⟩ <;> rfl
      rw [Service.step]
      cases hparse : parseArguments call.argv with
      | help => exact hparse ▸ hidle hparse (Or.inl rfl)
      | version => exact hparse ▸ hidle hparse (Or.inr (Or.inl rfl))
      | status => exact hparse ▸ hidle hparse (Or.inr (Or.inr (Or.inl rfl)))
      | unknown name => exact hparse ▸ hidle hparse (Or.inr (Or.inr (Or.inr ⟨name, rfl⟩)))
      | start skipConfirmation runInForeground => exact hparse ▸ h.step_start hparse
      | stop => exact hparse ▸ h.step_stop hparse
      | clean => exact hparse ▸ h.step_clean hparse
      | process options => exact hparse ▸ h.step_process hparse

/-! ## What holds of the service -/

theorem Service.Sound.signal {s : Service} (h : s.Sound) (pids : List Int32) :
    (s.signal pids).Sound := by
  refine ⟨fun daemon hdaemon hrunning ↦ ?_, h.installed⟩
  obtain ⟨before, hbefore, rfl⟩ := Option.map_eq_some_iff.mp hdaemon
  simp only [Daemon.receive, Bool.or_eq_false_iff] at hrunning
  exact h.running before hbefore hrunning.1

theorem Service.Sound.execute {s : Service} (h : s.Sound) (call : Call) (command : Command) :
    (s.execute call command).Sound := by
  cases command with
  | help | version | status | unknown => exact h
  | process options => exact h.signal _
  | start skipConfirmation runInForeground =>
      rw [Service.execute, Service.start]
      split
      · exact h
      split
      · exact ⟨fun _ _ _ ↦ rfl, fun _ ↦ rfl⟩
      · exact h
  | stop =>
      rw [Service.execute, Service.stop]
      split
      · exact h
      · refine ⟨fun daemon hdaemon hrunning ↦ ?_, fun henabled ↦ absurd henabled Bool.false_ne_true⟩
        obtain rfl := Option.some.inj hdaemon
        cases hrunning
  | clean =>
      rw [Service.execute, Service.clean]
      split
      · exact h
      · exact ⟨nofun, nofun⟩

theorem Service.Sound.step {s : Service} (h : s.Sound) (occurrence : Occurrence) :
    (s.step occurrence).Sound := by
  cases occurrence with
  | call call => exact h.execute call _
  | signal pid => exact h.signal [pid]
  | daemonEnds =>
      rw [Service.step, Service.ends]
      split
      · exact ⟨nofun, h.installed⟩
      · exact h

/-! ## Every sequence of calls -/

end BetterCpu.Main
