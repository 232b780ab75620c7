import BetterCpu.Library.Run
import BetterCpu.DaemonControl

/-!
# Boot persistence

The start command installs and enables a unit whose `ExecStop` is the stop
command of the user, and the stop command disables the unit.  The unit is
active only when systemd has launched the daemon, so the first shutdown after
a start by hand leaves it enabled and the second one disables it.
-/

namespace BetterCpu.Persistence

open DaemonControl

/-! ## The command line -/

inductive Command where
  | help
  | version
  | start (skipConfirmation runInForeground : Bool)
  | stop
  | status
  | clean
  | process (options : List Text)
  | unknown (command : Text)
  deriving DecidableEq

def bootOption : Text := ['-', '-', 'b', 'o', 'o', 't']
def startWord : Text := ['s', 't', 'a', 'r', 't']
def stopWord : Text := ['s', 't', 'o', 'p']

/-- The dispatch of `main` on what follows the name of the program. -/
def parseArguments (argv : List Text) : Command :=
  let launchedBySystemd := argv.head? = some bootOption
  match if launchedBySystemd then argv.tail else argv with
  | [] => .help
  | command :: options =>
      if command = ['-', 'h'] ∨ command = ['-', '-', 'h', 'e', 'l', 'p'] then .help
      else if command = ['-', 'v'] ∨ command = ['-', '-', 'v', 'e', 'r', 's', 'i', 'o', 'n'] then
        .version
      else if command = startWord then .start launchedBySystemd launchedBySystemd
      else if command = stopWord then .stop
      else if command = ['s', 't', 'a', 't', 'u', 's'] then .status
      else if command = ['c', 'l', 'e', 'a', 'n'] then .clean
      else if command = ['p'] then .process options
      else .unknown command

/-! ## The unit and the machine -/

structure UnitFile where
  execStart : List Text
  execStop : List Text
  deriving DecidableEq

/-- What `SystemdPersistence::install_and_enable` writes. -/
def bettercpuUnit : UnitFile where
  execStart := [bootOption, startWord]
  execStop := [stopWord]

abbrev Pid := {pid : Int32 // 0 < pid}

structure Host where
  unitFile : Option UnitFile
  enabled : Bool
  unitActive : Bool
  daemon : Option Pid
  pidFile : Option Text
  deriving DecidableEq

namespace Host

/-- `others` are the processes that are alive besides the daemon, the one that asks
among them. -/
def alive (others : Int32 → Bool) (s : Host) (pid : Int32) : Bool :=
  others pid || s.daemon.any fun daemon ↦ daemon.val == pid

def installAndEnable (s : Host) : Host :=
  { s with unitFile := some bettercpuUnit, enabled := true }

def disable (s : Host) : Host :=
  { s with enabled := false }

/-- `run_start_command`; `pid` is that of the process that enters the loop. -/
def start (others : Int32 → Bool) (pid : Pid) (skipConfirmation answer : Bool) (s : Host) : Host :=
  if isRunning (s.alive others) s.pidFile then s
  else if skipConfirmation || answer then
    { s.installAndEnable with daemon := some pid, pidFile := some (pidText pid) }
  else s

/-- A daemon that gets the signal restores the settings, removes the pid file
and ends; any other process is none of the model's business. -/
def terminate (pid : Int32) (s : Host) : Host :=
  if s.daemon.any fun daemon ↦ daemon.val == pid then
    { s with daemon := none, pidFile := none }
  else s

def stop (others : Int32 → Bool) (s : Host) : Host :=
  if isRunning (s.alive others) s.pidFile then
    match stopTarget (s.alive others) s.pidFile with
    | none => s
    | some pid => (s.terminate pid).disable
  else s

def clean (others : Int32 → Bool) (s : Host) : Host :=
  if isRunning (s.alive others) s.pidFile then s
  else { s.disable with unitFile := none, pidFile := none }

def execute (others : Int32 → Bool) (pid : Pid) (answer : Bool) (s : Host) : Command → Host
  | .start skipConfirmation _ => s.start others pid skipConfirmation answer
  | .stop => s.stop others
  | .clean => s.clean others
  | _ => s

end Host

/-! ## Shutdown and boot -/

/-- A shutdown and the boot behind it.  `removed` says whether a daemon that
systemd does not know got to remove its pid file before it was killed.  The start
process that the boot runs is one of `othersAtBoot`, so a stale pid file may name
that process itself. -/
structure Cycle where
  othersAtShutdown : Int32 → Bool
  removed : Bool
  othersAtBoot : Int32 → Bool
  pid : Pid

namespace Host

/-- An active unit has its `ExecStop` run while the daemon is alive; then every
process ends. -/
def shutdown (c : Cycle) (s : Host) : Host :=
  let s := match s.unitActive, s.unitFile with
    | true, some unit => s.execute c.othersAtShutdown c.pid false (parseArguments unit.execStop)
    | _, _ => s
  { s with
    unitActive := false
    daemon := none
    pidFile := if s.daemon.isSome && c.removed then none else s.pidFile }

/-- An enabled unit has its `ExecStart` run, and is active when the daemon
stays. -/
def boot (c : Cycle) (s : Host) : Host :=
  match s.enabled, s.unitFile with
  | true, some unit =>
      let s := s.execute c.othersAtBoot c.pid false (parseArguments unit.execStart)
      { s with unitActive := s.daemon.isSome }
  | _, _ => s

def cycle (c : Cycle) (s : Host) : Host :=
  (s.shutdown c).boot c

structure Persisted (s : Host) : Prop where
  enabled : s.enabled = true
  started : s.daemon.isSome = true

/-! ## The cycles after a start by hand -/

def byHand (pid : Pid) : Host :=
  ⟨some bettercpuUnit, true, false, some pid, some (pidText pid)⟩

def byUnit (pid : Pid) : Host :=
  ⟨some bettercpuUnit, true, true, some pid, some (pidText pid)⟩

theorem start_eq_byHand {others : Int32 → Bool} {s : Host} (pid : Pid)
    (hstopped : s.daemon = none) (hinactive : s.unitActive = false)
    (hcheck : isRunning others s.pidFile = false) :
    s.start others pid false true = byHand pid := by
  have halive : s.alive others = others := by
    funext p
    simp [alive, hstopped]
  simp [start, halive, hcheck, installAndEnable, byHand, hinactive]

theorem cycle_byHand (pid : Pid) (c : Cycle) :
    (byHand pid).cycle c =
      if c.removed = false ∧ c.othersAtBoot pid = true then
        ⟨some bettercpuUnit, true, false, none, some (pidText pid)⟩
      else byUnit c.pid := by
  have hparse : parseArguments bettercpuUnit.execStart = .start true true := by decide
  have halive (file : Option Text) :
      alive c.othersAtBoot ⟨some bettercpuUnit, true, false, none, file⟩ = c.othersAtBoot := by
    funext p
    simp [alive]
  cases hremoved : c.removed with
  | true =>
      simp [cycle, shutdown, boot, byHand, hremoved, execute, hparse, start, halive,
        installAndEnable, byUnit]
  | false =>
      cases hother : c.othersAtBoot pid <;>
        simp [cycle, shutdown, boot, byHand, hremoved, execute, hparse, start, halive,
          isRunning_pidText pid.2, hother, installAndEnable, byUnit]

/-- The stop command of an active unit disables it, so nothing is started at
the next boot. -/
theorem cycle_byUnit (pid : Pid) (c : Cycle) :
    (byUnit pid).cycle c = ⟨some bettercpuUnit, false, false, none, none⟩ := by
  have hparse : parseArguments bettercpuUnit.execStop = .stop := by decide
  have halive : (byUnit pid).alive c.othersAtShutdown pid = true := by simp [alive, byUnit]
  have hrunning : isRunning ((byUnit pid).alive c.othersAtShutdown) (some (pidText pid)) = true :=
    (isRunning_pidText pid.2).trans halive
  have htarget : stopTarget ((byUnit pid).alive c.othersAtShutdown) (some (pidText pid)) =
      some pid.val := by
    simp [stopTarget, Int32.not_le.mpr pid.2, halive]
  have hstop : (byUnit pid).stop c.othersAtShutdown =
      ⟨some bettercpuUnit, false, true, none, none⟩ := by
    simp only [stop, show (byUnit pid).pidFile = some (pidText pid) from rfl, hrunning, htarget]
    simp [terminate, disable, byUnit]
  simp only [cycle, shutdown, show (byUnit pid).unitActive = true from rfl,
    show (byUnit pid).unitFile = some bettercpuUnit from rfl, hparse, execute, hstop]
  rfl

/-- After a start by hand, the unit stays enabled and the daemon comes back at
every boot if and only if there is at most one cycle, and its boot finds no
other process under the pid that a killed daemon has left in its file. -/
theorem always_persisted_iff (s : Host) (others : Int32 → Bool) (pid : Pid)
    (cycles : List Cycle) (hstopped : s.daemon = none) (hinactive : s.unitActive = false)
    (hcheck : isRunning others s.pidFile = false) :
    Run.Always cycle Persisted cycles (s.start others pid false true) ↔
      cycles.length ≤ 1 ∧
        ∀ c ∈ cycles, c.removed = false → c.othersAtBoot pid = false := by
  rw [start_eq_byHand pid hstopped hinactive hcheck]
  have hfirst : (byHand pid).Persisted := ⟨rfl, rfl⟩
  rcases cycles with _ | ⟨first, _ | ⟨second, rest⟩⟩
  · simpa [Run.Always] using hfirst
  · simp only [Run.Always, hfirst, true_and, cycle_byHand, List.length_singleton, le_refl,
      List.forall_mem_singleton]
    split
    · next hstale => exact iff_of_false (fun h ↦ by cases h.started) (by simp [hstale])
    · next hfree => exact iff_of_true ⟨rfl, rfl⟩ (by simpa using hfree)
  · refine iff_of_false ?_ (by simp)
    rintro ⟨-, hone, htwo⟩
    have henabled := htwo.first.enabled
    rw [cycle_byHand] at hone henabled
    split at hone
    · cases hone.started
    · next hfree =>
        rw [if_neg hfree, cycle_byUnit] at henabled
        cases henabled

def fresh : Host := ⟨none, false, false, none, none⟩

/-- The start process is the only one that its own check may find. -/
def quietCycle (pid : Pid) : Cycle := ⟨fun _ ↦ false, false, fun p ↦ p == pid.val, pid⟩

theorem always_persisted_one_cycle :
    Run.Always cycle Persisted [quietCycle ⟨200, by decide⟩]
      (fresh.start (fun _ ↦ false) ⟨100, by decide⟩ false true) :=
  (always_persisted_iff fresh (fun _ ↦ false) ⟨100, by decide⟩ _ rfl rfl (by decide)).mpr
    ⟨by decide, by simp [quietCycle]⟩

/-- The second shutdown runs the stop command of the unit. -/
theorem not_persisted_two_cycles :
    ¬ Run.Always cycle Persisted [quietCycle ⟨200, by decide⟩, quietCycle ⟨300, by decide⟩]
      (fresh.start (fun _ ↦ false) ⟨100, by decide⟩ false true) :=
  fun h ↦ absurd h.last.enabled (by decide +kernel)

end Host

end BetterCpu.Persistence
