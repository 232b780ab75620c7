import BetterCpu.Persistence
import BetterCpu.ProcessCommand.Options
import BetterCpu.StartCommand.Launch

/-!
# The program

`main` with all of its commands: what each of them prints, how it exits, and
what it makes of the files that the program keeps.  What the commands find
besides these files belongs to the circumstances of an invocation.  The two
streams hold what the program itself writes; `systemctl` inherits them and may
add to them.
-/

namespace BetterCpu.Main

open DaemonControl Persistence ProcessCommand Text

/-! ## Invocations -/

/-- The files of the program and the enablement of its unit. -/
structure Files where
  traces : Traces
  pidFile : Option Text
  deriving DecidableEq

/-- How `remove_all` on the state directory turns out: the message of an error,
if there is one, and what is left then. -/
inductive Removal where
  | all
  | fails (message : Text) (backupFile pidFile : Bool)

/-- What an invocation finds.  `alive` and `kill` say on which pids the signal 0
and `SIGTERM` succeed, `response` is the line that is typed, `forks` says whether
the first fork of `daemonize` succeeds, and `pid` is the one of the process that
would enter the loop. -/
structure Circumstances where
  root : Bool
  alive : Int32 → Bool
  kill : Int32 → Bool
  programs : List ProgramGroup
  response : Text
  resolvedPath : Option Text
  captured : SystemStateBackup
  answers : StartAnswers
  forks : Bool
  pid : Int32
  enabledAfterDisable : Bool
  removal : Removal
  unitRemoved : Bool
  daemonReload : Bool

def clrYellow : Text := "\x1b[33m".toList
def clrLyellow : Text := "\x1b[93m".toList

def exits (exitCode : Int32) (stdout stderr : Text) : CommandOutcome :=
  ⟨exitCode, stdout, stderr, []⟩

/-- A message in a colour, as all the commands print them. -/
def coloured (colour message : Text) : Text :=
  colour ++ message ++ '\n' :: clrReset

/-! ## Help and version -/

/-- `print_help`. -/
def help (version : Text) : Text :=
  clrBold ++ clrLgreen ++ "bettercpu ".toList ++ version ++ clrReset ++
    " - Linux CPU Optimizer\n".toList ++
    coloured clrWhite "Written by Christian (@pusheandoando)".toList ++ ['\n'] ++
    clrBold ++ "Usage:\n".toList ++ clrReset ++
    helpLine "bettercpu -h, --help".toList "        Show this help message".toList ++
    helpLine "bettercpu -v, --version".toList "     Show the installed version".toList ++
    helpLine "sudo bettercpu start".toList "        Start the adaptive tuning daemon".toList ++
    helpLine "sudo bettercpu stop".toList
      "         Stop the daemon and restore original settings".toList ++
    helpLine "sudo bettercpu status".toList
      "       Show whether the daemon is currently active".toList ++
    helpLine "sudo bettercpu clean".toList
      "        Remove all bettercpu generated files".toList ++
    helpLine "sudo bettercpu p".toList
      "            List running programs and processes by CPU usage".toList ++
    helpLine "sudo bettercpu p -k <id>".toList
      "    Kill a program or process using its temporary id".toList ++
    helpLine "bettercpu p -h".toList "              Show help for the 'p' command".toList ++
    ['\n'] ++
    coloured clrWhite "Official repo: https://github.com/pusheandoando/bettercpu".toList

def versionLine (version : Text) : Text :=
  clrLwhite ++ "bettercpu ".toList ++ clrLgreen ++ version ++ clrReset ++ ['\n']

/-! ## The commands on the daemon -/

def needsRoot : CommandOutcome :=
  failure "[!!] root privileges required".toList []

def executablePath (resolvedPath : Option Text) : Text :=
  resolvedPath.getD "/usr/bin/bettercpu".toList

/-- The question of `run_start_command`. -/
def question : Text :=
  coloured clrCyan
      "bettercpu will start adaptive tuning for CPU, thermal, I/O, and memory.".toList ++
    coloured clrCyan "Changes apply immediately, no restart required.".toList ++
    clrWhite ++ "Continue? [y/n]: ".toList ++ clrReset

/-- `run_start_command` up to the loop of the engine, or up to the return before
it.  The files and the streams are those of the process that comes this far;
behind the loop it removes the pid file and returns zero.  The exit code is the
one that the caller waits for: a process that has forked in `daemonize` exits
with zero, whatever becomes of its child.  A pid file that is not written is one
that cannot be opened. -/
def start (c : Circumstances) (skipConfirmation runInForeground : Bool) (s : Files) :
    CommandOutcome × Files :=
  if !c.root then (needsRoot, s)
  else if isRunning c.alive s.pidFile then
    (failure "[!!] bettercpu is already running".toList [], s)
  else
    let asked := if skipConfirmation then [] else question
    if !skipConfirmation && c.response ≠ ['y'] && c.response ≠ ['Y'] then
      (exits 0 (asked ++ coloured clrYellow "[!!] cancelled".toList) [], s)
    else
      let path := executablePath c.resolvedPath
      let (installed, _) := SystemdPersistence.installAndEnable c.answers path s.traces
      let (saved, _) := StateBackup.saveToFile c.answers.backupFile c.captured s.traces.backupFile
      let fails (stdout message : Text) : CommandOutcome :=
        exits 1 (asked ++ stdout) (coloured clrLred message)
      let started := coloured clrLgreen "[OK] daemon started, applying adaptive tuning".toList
      match runStartCommand c.answers path runInForeground c.captured s.traces with
      | (.returnsOne, traces) =>
          (if !installed then
            fails [] "[!!] could not install the systemd service for boot persistence".toList
          else if !saved then
            fails [] "[!!] could not save original system state, aborting".toList
          else if runInForeground then fails started "[!!] could not write the pid file".toList
          else exits (if c.forks then 0 else 1) (asked ++ started)
            (coloured clrLred "[!!] could not start the daemon in the background".toList),
            { s with traces := traces })
      | (.tunes, traces) =>
          (exits 0 (asked ++ started) [],
            ⟨traces, if c.answers.pidFileWritten then some (pidText c.pid) else s.pidFile⟩)

/-- `run_stop_command`. -/
def stop (c : Circumstances) (s : Files) : CommandOutcome × Files :=
  if !c.root then (needsRoot, s)
  else if !isRunning c.alive s.pidFile then
    (failure "[!!] bettercpu is not running".toList [], s)
  else
    let pid := readPid s.pidFile
    if (stopTarget c.kill s.pidFile).isNone then
      (failure "[!!] could not signal the running daemon".toList [pid], s)
    else
      (⟨0, coloured clrLyellow
          "[OK] stop signal sent, original settings will be restored".toList, [], [pid]⟩,
        { s with traces := { s.traces with enabled := c.enabledAfterDisable } })

/-- `run_status_command`. -/
def status (c : Circumstances) (s : Files) : CommandOutcome :=
  if !c.root then needsRoot
  else if isRunning c.alive s.pidFile then
    exits 0
      (coloured clrLgreen ("[OK] active (pid ".toList ++ pidText (readPid s.pidFile) ++ [')'])) []
  else exits 1 (coloured clrLred "[!!] inactive".toList) []

/-- `run_clean_command`. -/
def clean (c : Circumstances) (s : Files) : CommandOutcome × Files :=
  if !c.root then (needsRoot, s)
  else if isRunning c.alive s.pidFile then
    (failure ("[!!] bettercpu is still restoring or running, ".toList ++
      "run 'sudo bettercpu stop' and wait until it is inactive".toList) [], s)
  else
    match c.removal with
    | .fails message backupFile pidFile =>
        (failure ("[!!] could not remove state directory: ".toList ++ message) [],
          { traces := { s.traces with
              backupFile := if backupFile then s.traces.backupFile else none }
            pidFile := if pidFile then s.pidFile else none })
    | .all =>
        let traces : Traces :=
          { unitFile := if c.unitRemoved then none else s.traces.unitFile
            enabled := c.enabledAfterDisable
            backupFile := none }
        (if !c.unitRemoved || !c.daemonReload then
          failure "[!!] could not remove the systemd service".toList []
        else success "[OK] all generated files removed".toList [], ⟨traces, none⟩)

/-! ## The dispatch -/

/-- `main` on what follows the name of the program; an exception that escapes ends
the program. -/
def run (version : Text) (c : Circumstances) (argv : List Text) (s : Files) :
    Except StdException CommandOutcome × Files :=
  match parseArguments argv with
  | .help =>
      let exitCode := if argv.isEmpty || argv = [bootOption] then 1 else 0
      (.ok (exits exitCode (help version) []), s)
  | .version => (.ok (exits 0 (versionLine version) []), s)
  | .start skipConfirmation runInForeground =>
      let (outcome, s) := start c skipConfirmation runInForeground s
      (.ok outcome, s)
  | .stop =>
      let (outcome, s) := stop c s
      (.ok outcome, s)
  | .status => (.ok (status c s), s)
  | .clean =>
      let (outcome, s) := clean c s
      (.ok outcome, s)
  | .process options => (runProcessCommand c.root c.kill c.programs options, s)
  | .unknown command =>
      (.ok (exits 1 (help version)
        (coloured clrLred ("[!!] unknown command '".toList ++ command ++ ['\'']))), s)

/-! ## Privileges -/

def signalled : Except StdException CommandOutcome → List Int32
  | .ok outcome => outcome.signalled
  | .error _ => []

section Run

variable {version : Text} {c : Circumstances} {argv : List Text} {s : Files}

theorem start_of_not_root (hroot : c.root = false) (skipConfirmation runInForeground : Bool) :
    start c skipConfirmation runInForeground s = (needsRoot, s) := by
  simp [start, hroot]

theorem stop_of_not_root (hroot : c.root = false) : stop c s = (needsRoot, s) := by
  simp [stop, hroot]

theorem clean_of_not_root (hroot : c.root = false) : clean c s = (needsRoot, s) := by
  simp [clean, hroot]

theorem signalled_dispatch_of_not_root (kill : Int32 → Bool) (programs : List ProgramGroup)
    (requests : ProcessCommand.Requests) :
    signalled (dispatch false kill programs requests) = [] := by
  unfold dispatch
  split
  · rfl
  split
  · rfl
  split
  · rfl
  · next rangeToken _ =>
      cases hparse : parseListingRange rangeToken ⟨0, 0⟩ with
      | error e => rfl
      | ok result =>
          obtain ⟨valid, range⟩ := result
          cases valid <;> rfl

theorem signalled_process_of_not_root (kill : Int32 → Bool) (programs : List ProgramGroup)
    (options : List Text) : signalled (runProcessCommand false kill programs options) = [] := by
  unfold runProcessCommand
  split
  · rfl
  · exact signalled_dispatch_of_not_root kill programs _

variable (version argv s) in
/-- Without the privileges, no command changes a file or sends a signal. -/
theorem run_of_not_root (hroot : c.root = false) :
    (run version c argv s).2 = s ∧ signalled (run version c argv s).1 = [] := by
  unfold run
  split
  · exact ⟨rfl, rfl⟩
  · exact ⟨rfl, rfl⟩
  · rw [start_of_not_root hroot]
    exact ⟨rfl, rfl⟩
  · rw [stop_of_not_root hroot]
    exact ⟨rfl, rfl⟩
  · refine ⟨rfl, ?_⟩
    rw [status, hroot]
    rfl
  · rw [clean_of_not_root hroot]
    exact ⟨rfl, rfl⟩
  · rw [hroot]
    exact ⟨rfl, signalled_process_of_not_root _ _ _⟩
  · exact ⟨rfl, rfl⟩

/-! ## Files -/

/-- The file is as it was, or gone. -/
def Kept (before after : Option Text) : Prop :=
  after = before ∨ after = none

structure Shrinks (s s' : Files) : Prop where
  unitFile : Kept s.traces.unitFile s'.traces.unitFile
  backupFile : Kept s.traces.backupFile s'.traces.backupFile
  pidFile : Kept s.pidFile s'.pidFile

theorem Kept.trans {a b c : Option Text} (h : Kept a b) (h' : Kept b c) : Kept a c := by
  rcases h' with rfl | rfl
  · exact h
  · exact Or.inr rfl

theorem shrinks_refl (s : Files) : Shrinks s s :=
  ⟨Or.inl rfl, Or.inl rfl, Or.inl rfl⟩

theorem Shrinks.trans {s s' s'' : Files} (h : Shrinks s s') (h' : Shrinks s' s'') :
    Shrinks s s'' :=
  ⟨h.unitFile.trans h'.unitFile, h.backupFile.trans h'.backupFile, h.pidFile.trans h'.pidFile⟩

/-- The start commands that get behind the question. -/
def confirms (c : Circumstances) (argv : List Text) : Bool :=
  match parseArguments argv with
  | .start skipConfirmation _ => skipConfirmation || c.response = ['y'] || c.response = ['Y']
  | _ => false

theorem start_of_not_confirmed {skipConfirmation : Bool} (runInForeground : Bool)
    (h : (skipConfirmation || c.response = ['y'] || c.response = ['Y']) = false) :
    (start c skipConfirmation runInForeground s).2 = s := by
  simp only [Bool.or_eq_false_iff, decide_eq_false_iff_not] at h
  obtain ⟨⟨hasks, hy⟩, hY⟩ := h
  unfold start
  split
  · rfl
  split
  · rfl
  simp [hasks, hy, hY]

theorem shrinks_stop : Shrinks s (stop c s).2 := by
  unfold stop
  split
  · exact shrinks_refl s
  split
  · exact shrinks_refl s
  dsimp only
  split
  · exact shrinks_refl s
  · exact ⟨Or.inl rfl, Or.inl rfl, Or.inl rfl⟩

theorem shrinks_clean : Shrinks s (clean c s).2 := by
  unfold clean
  split
  · exact shrinks_refl s
  split
  · exact shrinks_refl s
  split
  · next message backupFile pidFile _ =>
      refine ⟨Or.inl rfl, ?_, ?_⟩
      · cases backupFile
        · exact Or.inr rfl
        · exact Or.inl rfl
      · cases pidFile
        · exact Or.inr rfl
        · exact Or.inl rfl
  · refine ⟨?_, Or.inr rfl, Or.inr rfl⟩
    cases hunit : c.unitRemoved
    · exact Or.inl rfl
    · exact Or.inr rfl

/-- Only a start command that is confirmed makes a file. -/
theorem shrinks_run (h : confirms c argv = false) : Shrinks s (run version c argv s).2 := by
  unfold run
  unfold confirms at h
  split
  · exact shrinks_refl s
  · exact shrinks_refl s
  · next skipConfirmation runInForeground hparse =>
      rw [hparse] at h
      change Shrinks s (start c skipConfirmation runInForeground s).2
      rw [start_of_not_confirmed runInForeground h]
      exact shrinks_refl s
  · exact shrinks_stop
  · exact shrinks_refl s
  · exact shrinks_clean
  · exact shrinks_refl s
  · exact shrinks_refl s

/-- Whether the invocation is a clean command that succeeds. -/
def cleans (version : Text) (c : Circumstances) (argv : List Text) (s : Files) : Prop :=
  parseArguments argv = .clean ∧
    ∃ outcome, (run version c argv s).1 = .ok outcome ∧ outcome.exitCode = 0

structure Files.Bare (s : Files) : Prop where
  unitFile : s.traces.unitFile = none
  backupFile : s.traces.backupFile = none
  pidFile : s.pidFile = none

theorem Files.Bare.shrinks {s s' : Files} (h : s.Bare) (h' : Shrinks s s') : s'.Bare :=
  ⟨h'.unitFile.elim (fun heq ↦ heq.trans h.unitFile) id,
    h'.backupFile.elim (fun heq ↦ heq.trans h.backupFile) id,
    h'.pidFile.elim (fun heq ↦ heq.trans h.pidFile) id⟩

theorem bare_clean (hzero : (clean c s).1.exitCode = 0) : (clean c s).2.Bare := by
  have hone : ¬ (1 : Int32) = 0 := by decide
  unfold clean at hzero ⊢
  split at hzero
  · exact absurd hzero hone
  next hroot =>
    split at hzero
    · exact absurd hzero hone
    next hrunning =>
      rw [if_neg hroot, if_neg hrunning]
      cases hremoval : c.removal with
      | fails message backupFile pidFile =>
          rw [hremoval] at hzero
          exact absurd hzero hone
      | all =>
          simp only [hremoval] at hzero
          split at hzero
          · exact absurd hzero hone
          · next hremoved =>
              refine ⟨?_, rfl, rfl⟩
              have hunit : c.unitRemoved = true := by
                simp at hremoved
                exact hremoved.1
              simp [hunit]

theorem bare_of_cleans (h : cleans version c argv s) : (run version c argv s).2.Bare := by
  obtain ⟨hparse, outcome, hrun, hzero⟩ := h
  rw [run, hparse] at hrun ⊢
  cases hrun
  exact bare_clean hzero

end Run

/-! ## Histories -/

/-- Somebody calls the program, or the daemon ends and removes its pid file. -/
inductive Event where
  | invoke (c : Circumstances) (argv : List Text)
  | daemonEnds

/-- The files, and the signals that have been sent so far. -/
structure History where
  files : Files
  signals : List Int32

def step (version : Text) : Event → History → History
  | .invoke c argv, h =>
      let (outcome, files) := run version c argv h.files
      ⟨files, h.signals ++ signalled outcome⟩
  | .daemonEnds, h => { h with files := { h.files with pidFile := none } }

theorem step_invoke (version : Text) (c : Circumstances) (argv : List Text) (h : History) :
    step version (.invoke c argv) h =
      ⟨(run version c argv h.files).2, h.signals ++ signalled (run version c argv h.files).1⟩ :=
  rfl

def Event.privileged : Event → Bool
  | .invoke c _ => c.root
  | .daemonEnds => true

def Event.confirms : Event → Bool
  | .invoke c argv => c.root && Main.confirms c argv
  | .daemonEnds => false

/-- What is done without the privileges might as well not have been done: over
any history, the files and the signals are those of its privileged events. -/
theorem unprivileged_events (version : Text) (events : List Event) (h : History) :
    Run.exec (step version) events h =
      Run.exec (step version) (events.filter Event.privileged) h := by
  refine Run.exec_filter Event.privileged (fun event h hnot ↦ ?_) events h
  cases event with
  | daemonEnds => cases hnot
  | invoke c argv =>
      obtain ⟨hfiles, hsignals⟩ := run_of_not_root version argv h.files hnot
      rw [step_invoke, hfiles, hsignals, List.append_nil]

theorem shrinks_step {version : Text} {event : Event} (h : event.confirms = false)
    (history : History) : Shrinks history.files (step version event history).files := by
  cases event with
  | daemonEnds => exact ⟨Or.inl rfl, Or.inl rfl, Or.inr rfl⟩
  | invoke c argv =>
      rw [Event.confirms, Bool.and_eq_false_iff] at h
      rw [step_invoke]
      rcases h with hroot | hconfirms
      · rw [(run_of_not_root version argv history.files hroot).1]
        exact shrinks_refl history.files
      · exact shrinks_run hconfirms

theorem shrinks_exec {version : Text} {events : List Event}
    (h : ∀ event ∈ events, event.confirms = false) (history : History) :
    Shrinks history.files (Run.exec (step version) events history).files := by
  induction events generalizing history with
  | nil => exact shrinks_refl history.files
  | cons event events ih =>
      have hrest := ih (fun e he ↦ h e (List.mem_cons_of_mem _ he)) (step version event history)
      exact (shrinks_step (h event List.mem_cons_self) history).trans hrest

/-- Whatever else is done and by whomever, a history without a confirmed start
makes no file, and no file is left behind a clean command that succeeds until a
start is confirmed again. -/
theorem files_of_history (version : Text) (h : History) :
    (∀ events : List Event, (∀ event ∈ events, event.confirms = false) →
      Shrinks h.files (Run.exec (step version) events h).files) ∧
    ∀ front c argv back, cleans version c argv (Run.exec (step version) front h).files →
      (∀ event ∈ back, Event.confirms event = false) →
        (Run.exec (step version) (front ++ .invoke c argv :: back) h).files.Bare := by
  refine ⟨fun events hstarts ↦ shrinks_exec hstarts h, fun front c argv back hcleans hback ↦ ?_⟩
  rw [Run.exec_append, Run.exec_cons]
  have hbare : (step version (.invoke c argv) (Run.exec (step version) front h)).files.Bare :=
    bare_of_cleans hcleans
  exact hbare.shrinks (shrinks_exec hback _)

/-! ### A stopped machine -/

/-- The privileged user finds no daemon, and everything that is tried works. -/
def stopped : Circumstances where
  root := true
  alive := fun _ ↦ false
  kill := fun _ ↦ true
  programs := []
  response := ['y']
  resolvedPath := none
  captured := ⟨[], 60, 100, 20, 10, []⟩
  answers := smoothAnswers ⟨true, 1, Nat.one_pos, fun _ _ ↦ 1⟩
  forks := true
  pid := 4321
  enabledAfterDisable := false
  removal := .all
  unitRemoved := true
  daemonReload := true

def cleanWord : Text := ['c', 'l', 'e', 'a', 'n']
def statusWord : Text := ['s', 't', 'a', 't', 'u', 's']

theorem cleans_stopped (s : Files) : cleans [] stopped [cleanWord] s := by
  have hparse : parseArguments [cleanWord] = .clean := by decide
  have hrunning : isRunning stopped.alive s.pidFile = false := by simp [isRunning, stopped]
  refine ⟨hparse, (clean stopped s).1, rfl, ?_⟩
  rw [clean, hrunning]
  rfl

/-- What a start leaves behind is gone with the clean command. -/
theorem files_of_history_stopped (s : Files) :
    (Run.exec (step []) ([.invoke stopped [startWord]] ++
      .invoke stopped [cleanWord] :: [.invoke stopped [stopWord]]) ⟨s, []⟩).files.Bare := by
  refine (files_of_history [] ⟨s, []⟩).2 _ stopped [cleanWord] _ (cleans_stopped _) ?_
  intro event hevent
  rw [List.mem_singleton] at hevent
  rw [hevent]
  decide

/-! ## What is printed -/

/-- A success has something to say on the first stream and nothing on the second
one, a failure has something on the second one. -/
def Speaks (outcome : CommandOutcome) : Prop :=
  (outcome.exitCode = 0 ∧ outcome.stdout ≠ [] ∧ outcome.stderr = []) ∨
    (outcome.exitCode = 1 ∧ outcome.stderr ≠ [])

theorem speaks_failure (message : Text) (pids : List Int32) :
    Speaks (ProcessCommand.failure message pids) :=
  Or.inr ⟨rfl, by simp [ProcessCommand.failure]⟩

theorem speaks_success (message : Text) (pids : List Int32) : Speaks (success message pids) :=
  Or.inl ⟨rfl, by simp [success], rfl⟩

theorem coloured_ne_nil (colour message : Text) : coloured colour message ≠ [] := by
  simp [coloured]

theorem speaks_exits_zero {stdout : Text} (h : stdout ≠ []) : Speaks (exits 0 stdout []) :=
  Or.inl ⟨rfl, h, rfl⟩

theorem speaks_exits_one (stdout : Text) {stderr : Text} (h : stderr ≠ []) :
    Speaks (exits 1 stdout stderr) :=
  Or.inr ⟨rfl, h⟩

section Speaks

variable {version : Text} {c : Circumstances} {argv : List Text} {s : Files}

/-- A start in the background whose `daemonize` fails behind the first fork, when
the process that the caller waits for is gone. -/
structure Orphaned (c : Circumstances) (argv : List Text) (s : Files) : Prop where
  command : ∃ skipConfirmation, parseArguments argv = .start skipConfirmation false
  root : c.root = true
  idle : isRunning c.alive s.pidFile = false
  confirmed : confirms c argv = true
  installed : (SystemdPersistence.installAndEnable c.answers (executablePath c.resolvedPath)
    s.traces).1 = true
  saved : (StateBackup.saveToFile c.answers.backupFile c.captured s.traces.backupFile).1 = true
  daemonized : c.answers.daemonized = false
  forks : c.forks = true

/-- The message of a failure that the exit code does not show. -/
structure Unnoticed (outcome : CommandOutcome) : Prop where
  exitCode : outcome.exitCode = 0
  stdout : outcome.stdout ≠ []
  stderr : outcome.stderr ≠ []

theorem speaks_start {skipConfirmation runInForeground : Bool}
    (hparse : parseArguments argv = .start skipConfirmation runInForeground)
    (hnot : ¬ Orphaned c argv s) : Speaks (start c skipConfirmation runInForeground s).1 := by
  have hfails (stdout message : Text) : Speaks (exits 1 stdout (coloured clrLred message)) :=
    speaks_exits_one stdout (coloured_ne_nil _ _)
  unfold start
  split
  · exact speaks_failure _ _
  next hroot =>
  split
  · exact speaks_failure _ _
  next hidle =>
  dsimp only
  split
  · exact speaks_exits_zero (by simp [coloured_ne_nil])
  next hasks =>
  split
  · next traces hrun =>
    dsimp only
    split
    · exact hfails _ _
    next hinstalled =>
    split
    · exact hfails _ _
    next hsaved =>
    split
    · exact hfails _ _
    next hbackground =>
    split
    · next hforks =>
      obtain rfl : runInForeground = false := Bool.eq_false_iff.mpr hbackground
      refine absurd ⟨⟨skipConfirmation, hparse⟩, by simpa using hroot, by simpa using hidle, ?_,
        by simpa using hinstalled, by simpa using hsaved, ?_, hforks⟩ hnot
      · rw [confirms, hparse]
        simpa [imp_iff_not_or, or_assoc] using hasks
      · exact (returnsOne_iff_not_daemonized (by simpa using hinstalled)
          (by simpa using hsaved)).mp (congrArg Prod.fst hrun)
    · exact hfails _ _
  · exact speaks_exits_zero (by simp [coloured_ne_nil])

theorem unnoticed_start {skipConfirmation runInForeground : Bool}
    (hparse : parseArguments argv = .start skipConfirmation runInForeground)
    (h : Orphaned c argv s) : Unnoticed (start c skipConfirmation runInForeground s).1 := by
  obtain ⟨skip, hcommand⟩ := h.command
  obtain ⟨rfl, rfl⟩ : skipConfirmation = skip ∧ runInForeground = false := by
    simpa using hparse.symm.trans hcommand
  have hasks : (!skipConfirmation && c.response ≠ ['y'] && c.response ≠ ['Y']) = false := by
    have hconfirmed := h.confirmed
    rw [confirms, hparse] at hconfirmed
    simpa [imp_iff_not_or, or_assoc] using hconfirmed
  have hreturns := (returnsOne_iff_not_daemonized h.installed h.saved).mpr h.daemonized
  obtain ⟨traces, hrun⟩ : ∃ traces, runStartCommand c.answers (executablePath c.resolvedPath)
      false c.captured s.traces = (.returnsOne, traces) := ⟨_, Prod.ext hreturns rfl⟩
  simp only [start, h.root, h.idle, hasks, hrun, h.installed, h.saved, h.forks, Bool.not_true,
    Bool.false_eq_true, if_false, if_true]
  exact ⟨rfl, by simp [exits, coloured_ne_nil], coloured_ne_nil _ _⟩

theorem speaks_stop : Speaks (stop c s).1 := by
  unfold stop
  split
  · exact speaks_failure _ _
  split
  · exact speaks_failure _ _
  dsimp only
  split
  · exact speaks_failure _ _
  · exact Or.inl ⟨rfl, coloured_ne_nil _ _, rfl⟩

theorem speaks_clean : Speaks (clean c s).1 := by
  unfold clean
  split
  · exact speaks_failure _ _
  split
  · exact speaks_failure _ _
  split
  · exact speaks_failure _ _
  · dsimp only
    split
    · exact speaks_failure _ _
    · exact speaks_success _ _

theorem speaks_killByProcessId (kill : Int32 → Bool) (programs : List ProgramGroup)
    (idToken : Text) (programId processId : UInt64) :
    Speaks (killByProcessId kill programs idToken programId processId) := by
  unfold killByProcessId
  split
  · exact speaks_failure _ _
  · dsimp only
    split
    · exact speaks_failure _ _
    · exact speaks_success _ _

theorem speaks_killByProgramId (kill : Int32 → Bool) (programs : List ProgramGroup)
    (idToken : Text) (programId : UInt64) :
    Speaks (killByProgramId kill programs idToken programId) := by
  unfold killByProgramId
  split
  · exact speaks_failure _ _
  · dsimp only
    split
    · exact speaks_failure _ _
    · exact speaks_success _ _

theorem listingHeader_ne_nil (idWidth programWidth : ℕ) :
    listingHeader idWidth programWidth ≠ [] := by
  simp [listingHeader]

theorem processListing_ne_nil (range : Option ProcessListingRange)
    (programs : List ProgramGroup) : processListing range programs ≠ [] := by
  have htext : some (processListing range programs) = processListing? range programs :=
    Option.some_get (isSome_processListing? range programs)
  rw [processListing?_eq] at htext
  rw [Option.some_inj.mp htext]
  exact List.append_ne_nil_of_left_ne_nil (listingHeader_ne_nil _ _) _

theorem speaks_listed (range : Option ProcessListingRange) (programs : List ProgramGroup) :
    Speaks (listed range programs) :=
  Or.inl ⟨rfl, processListing_ne_nil range programs, rfl⟩

theorem speaks_kill {root : Bool} {kill : Int32 → Bool} {programs : List ProgramGroup}
    {idToken : Text} {outcome : CommandOutcome}
    (h : runProcessKillCommand root kill programs idToken = .ok outcome) : Speaks outcome := by
  unfold runProcessKillCommand at h
  split at h
  · cases h
    exact speaks_failure _ _
  obtain ⟨⟨isProcess, programId, processId⟩, -, h⟩ := bind_eq_ok_iff.mp h
  cases isProcess with
  | true =>
      cases h
      exact speaks_killByProcessId _ _ _ _ _
  | false =>
      obtain ⟨⟨isProgram, programId⟩, -, h⟩ := bind_eq_ok_iff.mp h
      cases isProgram with
      | true =>
          cases h
          exact speaks_killByProgramId _ _ _ _
      | false =>
          cases h
          exact speaks_failure _ _

theorem speaks_dispatch {root : Bool} {kill : Int32 → Bool} {programs : List ProgramGroup}
    {requests : ProcessCommand.Requests} {outcome : CommandOutcome}
    (h : dispatch root kill programs requests = .ok outcome) : Speaks outcome := by
  unfold dispatch at h
  split at h
  · cases h
    exact Or.inl ⟨rfl, by simp [processHelp], rfl⟩
  split at h
  · exact speaks_kill h
  split at h
  · cases h
    exact speaks_listed _ _
  · obtain ⟨⟨valid, range⟩, -, h⟩ := bind_eq_ok_iff.mp h
    cases valid with
    | true =>
        cases h
        exact speaks_listed _ _
    | false =>
        cases h
        exact speaks_failure _ _

theorem speaks_process {root : Bool} {kill : Int32 → Bool} {programs : List ProgramGroup}
    {options : List Text} {outcome : CommandOutcome}
    (h : runProcessCommand root kill programs options = .ok outcome) : Speaks outcome := by
  unfold runProcessCommand at h
  split at h
  · cases h
    exact speaks_failure _ _
  · exact speaks_dispatch h

theorem help_ne_nil (version : Text) : help version ≠ [] := by
  unfold help
  exact List.append_ne_nil_of_right_ne_nil _ (coloured_ne_nil _ _)

/-- The failures that are answers: the help for nothing, and an inactive daemon. -/
def Answers (c : Circumstances) (argv : List Text) (s : Files) : Prop :=
  argv = [] ∨ argv = [bootOption] ∨
    (parseArguments argv = .status ∧ c.root = true ∧ isRunning c.alive s.pidFile = false)

/-- An answer goes to the first stream, although the command exits with one. -/
structure Answered (outcome : CommandOutcome) : Prop where
  exitCode : outcome.exitCode = 1
  stdout : outcome.stdout ≠ []
  stderr : outcome.stderr = []

theorem answered_exits {stdout : Text} (h : stdout ≠ []) : Answered (exits 1 stdout []) :=
  ⟨rfl, h, rfl⟩

theorem not_answers_of_parse {command : Command} (h : parseArguments argv = command)
    (hhelp : command ≠ .help) (hstatus : command ≠ .status) : ¬ Answers c argv s := by
  rintro (rfl | rfl | ⟨hparse, -, -⟩)
  · exact hhelp h.symm
  · exact hhelp h.symm
  · exact hstatus (h.symm.trans hparse)

theorem streams_of_help (hparse : parseArguments argv = .help) :
    let exitCode := if argv.isEmpty || argv = [bootOption] then 1 else 0
    (Answers c argv s → Answered (exits exitCode (help version) [])) ∧
      (¬ Answers c argv s → Speaks (exits exitCode (help version) [])) := by
  intro exitCode
  by_cases hempty : argv = [] ∨ argv = [bootOption]
  · have hexit : exitCode = 1 := if_pos (by simpa using hempty)
    rw [hexit]
    refine ⟨fun _ ↦ answered_exits (help_ne_nil version), fun hnot ↦ absurd ?_ hnot⟩
    rw [Answers, ← or_assoc]
    exact Or.inl hempty
  · have hexit : exitCode = 0 := if_neg (by simpa using hempty)
    rw [hexit]
    refine ⟨fun hanswers ↦ ?_, fun _ ↦ speaks_exits_zero (help_ne_nil version)⟩
    rw [Answers, ← or_assoc] at hanswers
    obtain ⟨hstatus, -, -⟩ := hanswers.resolve_left hempty
    cases hparse.symm.trans hstatus

theorem streams_of_status (hparse : parseArguments argv = .status) :
    (Answers c argv s → Answered (status c s)) ∧ (¬ Answers c argv s → Speaks (status c s)) := by
  unfold status
  split
  · next hroot =>
      refine ⟨?_, fun _ ↦ speaks_failure _ _⟩
      rintro (rfl | rfl | ⟨-, hisroot, -⟩)
      · cases hparse
      · cases hparse
      · simp [hisroot] at hroot
  next hroot =>
    split
    · next hrunning =>
        refine ⟨?_, fun _ ↦ speaks_exits_zero (coloured_ne_nil _ _)⟩
        rintro (rfl | rfl | ⟨-, -, hinactive⟩)
        · cases hparse
        · cases hparse
        · rw [hinactive] at hrunning
          cases hrunning
    · next hrunning =>
        refine ⟨fun _ ↦ answered_exits (coloured_ne_nil _ _), fun hnot ↦ absurd ?_ hnot⟩
        exact Or.inr (Or.inr ⟨hparse, by simpa using hroot, by simpa using hrunning⟩)

/-- A script may rely on the exit code and on the streams, but for a daemon that
is lost behind the first fork. -/
theorem streams_of_run {outcome : CommandOutcome}
    (h : (run version c argv s).1 = .ok outcome) :
    (Answers c argv s → Answered outcome) ∧ (Orphaned c argv s → Unnoticed outcome) ∧
      (¬ Answers c argv s → ¬ Orphaned c argv s → Speaks outcome) := by
  have hspeaks {command : Command} (hparse : parseArguments argv = command)
      (hhelp : command ≠ .help) (hstatus : command ≠ .status)
      (hstart : ∀ skipConfirmation, command ≠ .start skipConfirmation false)
      (hout : Speaks outcome) :
      (Answers c argv s → Answered outcome) ∧ (Orphaned c argv s → Unnoticed outcome) ∧
        (¬ Answers c argv s → ¬ Orphaned c argv s → Speaks outcome) := by
    refine ⟨fun hanswers ↦ absurd hanswers (not_answers_of_parse hparse hhelp hstatus),
      fun horphaned ↦ ?_, fun _ _ ↦ hout⟩
    obtain ⟨skipConfirmation, hcommand⟩ := horphaned.command
    exact absurd (hparse.symm.trans hcommand) (hstart skipConfirmation)
  have hnone {command : Command} (hparse : parseArguments argv = command)
      (hstart : ∀ skipConfirmation, command ≠ .start skipConfirmation false)
      (hout : (Answers c argv s → Answered outcome) ∧ (¬ Answers c argv s → Speaks outcome)) :
      (Answers c argv s → Answered outcome) ∧ (Orphaned c argv s → Unnoticed outcome) ∧
        (¬ Answers c argv s → ¬ Orphaned c argv s → Speaks outcome) := by
    refine ⟨hout.1, fun horphaned ↦ ?_, fun hanswers _ ↦ hout.2 hanswers⟩
    obtain ⟨skipConfirmation, hcommand⟩ := horphaned.command
    exact absurd (hparse.symm.trans hcommand) (hstart skipConfirmation)
  unfold run at h
  split at h
  · next hparse =>
      cases h
      exact hnone hparse nofun (streams_of_help hparse)
  · next hparse =>
      cases h
      exact hspeaks hparse nofun nofun nofun (speaks_exits_zero (by simp [versionLine]))
  · next hparse =>
      cases h
      exact ⟨fun hanswers ↦ absurd hanswers (not_answers_of_parse hparse nofun nofun),
        unnoticed_start hparse, fun _ hnot ↦ speaks_start hparse hnot⟩
  · next hparse =>
      cases h
      exact hspeaks hparse nofun nofun nofun speaks_stop
  · next hparse =>
      cases h
      exact hnone hparse nofun (streams_of_status hparse)
  · next hparse =>
      cases h
      exact hspeaks hparse nofun nofun nofun speaks_clean
  · next hparse =>
      exact hspeaks hparse nofun nofun nofun (speaks_process h)
  · next hparse =>
      cases h
      exact hspeaks hparse nofun nofun nofun (speaks_exits_one _ (coloured_ne_nil _ _))

end Speaks

/-- The daemon is not there: this is what `status` is asked for, and no success
of `stop`.  A start whose `daemonize` fails behind the fork looks like one. -/
theorem streams_of_run_stopped :
    let lost := { stopped with answers := { stopped.answers with daemonized := false } }
    (∀ outcome, (run [] stopped [statusWord] ⟨⟨none, false, none⟩, none⟩).1 = .ok outcome →
      Answered outcome) ∧
    (∀ outcome, (run [] lost [startWord] ⟨⟨none, false, none⟩, none⟩).1 = .ok outcome →
      Unnoticed outcome) ∧
    ∀ outcome, (run [] stopped [stopWord] ⟨⟨none, false, none⟩, none⟩).1 = .ok outcome →
      Speaks outcome := by
  refine ⟨fun outcome h ↦ ?_, fun outcome h ↦ ?_, fun outcome h ↦ ?_⟩
  · exact (streams_of_run h).1 (Or.inr (Or.inr ⟨by decide, rfl, by decide⟩))
  · exact (streams_of_run h).2.1 ⟨⟨false, by decide⟩, rfl, by decide, by decide, by decide +kernel,
      by decide +kernel, rfl, rfl⟩
  · have hparse : parseArguments [stopWord] = .stop := by decide
    refine (streams_of_run h).2.2 (not_answers_of_parse hparse nofun nofun) ?_
    intro horphaned
    obtain ⟨skipConfirmation, hcommand⟩ := horphaned.command
    cases hparse.symm.trans hcommand

end BetterCpu.Main
