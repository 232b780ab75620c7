import BetterCpu.DaemonControl
import BetterCpu.Library.Run

/-!
# Pids that come back

The pid file stays when a daemon is killed and when the machine goes down,
and the commands trust the number in it.  They are wrong from the moment at
which a process that is not a daemon gets that number.
-/

namespace BetterCpu.PidReuse

open DaemonControl

/-- A daemon, and whether it has been told to stop; or any other process, the
commands themselves among them. -/
inductive Program where
  | bettercpu (stopRequested : Bool)
  | other
  deriving DecidableEq, Repr

/-- What `SIGTERM` makes of a process; whether another one ends on it is left
open. -/
def Program.terminate : Program → Program
  | .bettercpu _ => .bettercpu true
  | .other => .other

structure Host where
  processes : Int32 → Option Program
  pidFile : Option Text
  signals : List (Int32 × Program)

/-- `start` is run by a process that has been created before; it becomes the
daemon in the foreground, or leaves a child that does.  `finish` is the end of
a daemon that was told to stop. -/
inductive Event where
  | create (pid : Int32)
  | exit (pid : Int32)
  | start (pid : Int32) (child : Option Int32)
  | stop
  | status
  | clean
  | finish (pid : Int32)
  | crash (pid : Int32)
  | reboot

namespace Host

def alive (s : Host) (pid : Int32) : Bool :=
  (s.processes pid).isSome

def running (s : Host) : Bool :=
  isRunning s.alive s.pidFile

def Daemon (s : Host) (pid : Int32) : Prop :=
  ∃ stopRequested, s.processes pid = some (.bettercpu stopRequested)

def Fresh (s : Host) (pid : Int32) : Prop :=
  0 < pid ∧ s.processes pid = none

instance instDecidableFresh (s : Host) (pid : Int32) : Decidable (s.Fresh pid) :=
  inferInstanceAs (Decidable (_ ∧ _))

def put (pid : Int32) (program : Option Program) (s : Host) : Host :=
  { s with processes := Function.update s.processes pid program }

/-- The process writes the pid file and enters the loop. -/
def enterLoop (pid : Int32) (s : Host) : Host :=
  { s.put pid (some (.bettercpu false)) with pidFile := some (pidText pid) }

def start (pid : Int32) (child : Option Int32) (s : Host) : Host :=
  if 0 < pid ∧ s.processes pid = some .other ∧ s.running = false then
    match child with
    | none => s.enterLoop pid
    | some child => if s.Fresh child then (s.put pid none).enterLoop child else s
  else s

def terminate (pid : Int32) (s : Host) : Host :=
  match s.processes pid with
  | none => s
  | some program =>
      { s.put pid (some program.terminate) with signals := s.signals ++ [(pid, program)] }

def stop (s : Host) : Host :=
  if s.running then
    match stopTarget s.alive s.pidFile with
    | none => s
    | some pid => s.terminate pid
  else s

def step (event : Event) (s : Host) : Host :=
  match event with
  | .create pid => if s.Fresh pid then s.put pid (some .other) else s
  | .exit pid => if s.processes pid = some .other then s.put pid none else s
  | .start pid child => s.start pid child
  | .stop => s.stop
  | .status => s
  | .clean => if s.running then s else { s with pidFile := none }
  | .finish pid =>
      if s.processes pid = some (.bettercpu true) then { s.put pid none with pidFile := none }
      else s
  | .crash pid => if s.processes pid = some .other then s else s.put pid none
  | .reboot => { s with processes := fun _ ↦ none }

end Host

/-- Only a daemon shows as running, and only daemons have been signalled. -/
structure OnlyDaemons (s : Host) : Prop where
  running : s.running = true → ∃ pid, s.Daemon pid
  signals : ∀ entry ∈ s.signals, entry.2 ≠ .other

/-- No process is created under the number that the pid file holds. -/
def Event.Distinct : Event → Host → Prop
  | .create pid, s => s.Fresh pid → readPid s.pidFile ≠ pid
  | _, _ => True

/-! ## The pid file names the daemon -/

def Named (s : Host) : Prop :=
  ∀ pid, s.Daemon pid → 0 < pid ∧ s.pidFile = some (pidText pid)

variable {s : Host} {pid : Int32} {program : Option Program}

theorem Named.readPid_eq (h : Named s) (hdaemon : s.Daemon pid) : readPid s.pidFile = pid := by
  rw [(h pid hdaemon).2, readPid_pidText]

theorem Named.running (h : Named s) (hdaemon : s.Daemon pid) : s.running = true := by
  obtain ⟨hpos, hpidFile⟩ := h pid hdaemon
  obtain ⟨stopRequested, hprocess⟩ := hdaemon
  rw [Host.running, hpidFile, isRunning_pidText hpos]
  simp [Host.alive, hprocess]

theorem Named.not_daemon (h : Named s) (hidle : s.running = false) (pid : Int32) :
    ¬ s.Daemon pid := by
  intro hdaemon
  rw [h.running hdaemon] at hidle
  cases hidle

theorem daemon_put_cases {q : Int32} (h : (s.put pid program).Daemon q) :
    q = pid ∧ (∃ stopRequested, program = some (.bettercpu stopRequested)) ∨
      q ≠ pid ∧ s.Daemon q := by
  by_cases hq : q = pid
  · subst hq
    exact Or.inl ⟨rfl, by simpa [Host.Daemon, Host.put] using h⟩
  · exact Or.inr ⟨hq, by simpa [Host.Daemon, Host.put, hq] using h⟩

theorem daemon_put_none {q : Int32} (h : (s.put pid none).Daemon q) : q ≠ pid ∧ s.Daemon q := by
  rcases daemon_put_cases h with ⟨-, stopRequested, hcontra⟩ | hdaemon
  · cases hcontra
  · exact hdaemon

theorem daemon_put_of_ne {q : Int32} (hq : q ≠ pid) (h : s.Daemon q) :
    (s.put pid program).Daemon q := by
  simpa [Host.Daemon, Host.put, hq] using h

theorem Named.put (h : Named s)
    (hprogram : ∀ stopRequested, program = some (.bettercpu stopRequested) → s.Daemon pid) :
    Named (s.put pid program) := by
  intro q hq
  rcases daemon_put_cases hq with ⟨rfl, stopRequested, heq⟩ | ⟨-, hdaemon⟩
  · exact h q (hprogram stopRequested heq)
  · exact h q hdaemon

theorem named_enterLoop (hpos : 0 < pid) (hnone : ∀ q, ¬ s.Daemon q) : Named (s.enterLoop pid) := by
  intro q hq
  rcases daemon_put_cases hq with ⟨rfl, -⟩ | ⟨-, hdaemon⟩
  · exact ⟨hpos, rfl⟩
  · exact absurd hdaemon (hnone q)

theorem Named.start (h : Named s) (child : Option Int32) : Named (s.start pid child) := by
  unfold Host.start
  split
  · next hready =>
      obtain ⟨hpos, -, hidle⟩ := hready
      have hnone := h.not_daemon hidle
      cases child with
      | none => exact named_enterLoop hpos hnone
      | some child =>
          dsimp only
          split
          · next hfresh =>
              apply named_enterLoop hfresh.1
              exact fun q hq ↦ hnone q (daemon_put_none hq).2
          · exact h
  · exact h

theorem Named.terminate (h : Named s) : Named (s.terminate pid) := by
  unfold Host.terminate
  split
  · exact h
  · next program hprocess =>
      have hput : Named (s.put pid (some program.terminate)) := by
        apply h.put
        intro stopRequested heq
        cases program with
        | bettercpu requested => exact ⟨requested, hprocess⟩
        | other => cases heq
      exact hput

theorem Named.finish (h : Named s) (hdaemon : s.Daemon pid) :
    Named { s.put pid none with pidFile := none } := by
  intro q hq
  obtain ⟨hne, hq⟩ := daemon_put_none (s := s) hq
  exact absurd ((h.readPid_eq hq).symm.trans (h.readPid_eq hdaemon)) hne

theorem Named.step (event : Event) (s : Host) (h : Named s) : Named (Host.step event s) := by
  cases event with
  | create pid =>
      simp only [Host.step]
      split
      · exact h.put fun _ heq ↦ by cases heq
      · exact h
  | exit pid =>
      simp only [Host.step]
      split
      · exact h.put fun _ heq ↦ by cases heq
      · exact h
  | start pid child => exact h.start child
  | stop =>
      simp only [Host.step, Host.stop]
      split
      · split
        · exact h
        · exact h.terminate
      · exact h
  | status => exact h
  | clean =>
      simp only [Host.step]
      split
      · exact h
      · next hidle => exact fun q hq ↦ absurd hq (h.not_daemon (by simpa using hidle) q)
  | finish pid =>
      simp only [Host.step]
      split
      · next hprocess => exact h.finish ⟨true, hprocess⟩
      · exact h
  | crash pid =>
      simp only [Host.step]
      split
      · exact h
      · exact h.put fun _ heq ↦ by cases heq
  | reboot =>
      rintro q ⟨stopRequested, hprocess⟩
      cases hprocess

/-! ## What a step does to the liveness test -/

theorem running_put_of_ne (h : readPid s.pidFile ≠ pid) :
    (s.put pid program).running = s.running := by
  simp [Host.running, isRunning, Host.put, Host.alive, Function.update_of_ne h]

theorem running_put_none (h : (s.put pid none).running = true) :
    readPid s.pidFile ≠ pid ∧ s.running = true := by
  have hne : readPid s.pidFile ≠ pid := by
    rintro rfl
    simp [Host.running, isRunning, Host.put, Host.alive] at h
  exact ⟨hne, (running_put_of_ne hne).symm.trans h⟩

theorem running_put_self (hpos : 0 < pid) (h : readPid s.pidFile = pid) {program : Program} :
    (s.put pid (some program)).running = true := by
  subst h
  apply isRunning_of_alive hpos
  simp [Host.put, Host.alive]

theorem stopTarget_of_running (h : s.running = true) :
    stopTarget s.alive s.pidFile = some (readPid s.pidFile) := by
  simp only [Host.running, isRunning, stopTarget] at h ⊢
  grind

theorem OnlyDaemons.put_none (h : OnlyDaemons s) (hnamed : Named s) :
    OnlyDaemons (s.put pid none) where
  running hrunning := by
    obtain ⟨hne, hrunning⟩ := running_put_none hrunning
    obtain ⟨q, hq⟩ := h.running hrunning
    rw [hnamed.readPid_eq hq] at hne
    exact ⟨q, daemon_put_of_ne hne hq⟩
  signals := h.signals

/-- A new process keeps the test right exactly when it has another number. -/
theorem onlyDaemons_create_iff (h : OnlyDaemons s) (hnamed : Named s) (hfresh : s.Fresh pid) :
    OnlyDaemons (s.put pid (some .other)) ↔ readPid s.pidFile ≠ pid := by
  constructor
  · intro hafter hpid
    obtain ⟨q, hq⟩ := hafter.running (running_put_self hfresh.1 hpid)
    rcases daemon_put_cases hq with ⟨-, stopRequested, hcontra⟩ | ⟨hne, hq⟩
    · cases hcontra
    · exact hne ((hnamed.readPid_eq hq).symm.trans hpid)
  · intro hne
    refine ⟨fun hrunning ↦ ?_, h.signals⟩
    rw [running_put_of_ne hne] at hrunning
    obtain ⟨q, hq⟩ := h.running hrunning
    rw [hnamed.readPid_eq hq] at hne
    exact ⟨q, daemon_put_of_ne hne hq⟩

theorem OnlyDaemons.start (h : OnlyDaemons s) (child : Option Int32) :
    OnlyDaemons (s.start pid child) := by
  have henter (pid : Int32) {t : Host} (hsignals : t.signals = s.signals) :
      OnlyDaemons (t.enterLoop pid) :=
    ⟨fun _ ↦ ⟨pid, false, by simp [Host.enterLoop, Host.put]⟩, hsignals ▸ h.signals⟩
  unfold Host.start
  split
  · cases child with
    | none => exact henter pid rfl
    | some child =>
        dsimp only
        split
        · exact henter child rfl
        · exact h
  · exact h

theorem OnlyDaemons.stop (h : OnlyDaemons s) (hnamed : Named s) : OnlyDaemons s.stop := by
  unfold Host.stop
  split
  · next hrunning =>
      obtain ⟨pid, stopRequested, hprocess⟩ := h.running hrunning
      have hpid := hnamed.readPid_eq ⟨stopRequested, hprocess⟩
      simp only [stopTarget_of_running hrunning, hpid, Host.terminate, hprocess]
      refine ⟨fun _ ↦ ⟨pid, true, by simp [Host.put, Program.terminate]⟩, ?_⟩
      simp only [List.forall_mem_append, List.forall_mem_singleton]
      exact ⟨h.signals, nofun⟩
  · exact h

theorem onlyDaemons_of_idle (h : OnlyDaemons s) {t : Host} (hsignals : t.signals = s.signals)
    (hidle : t.running = false) : OnlyDaemons t := by
  refine ⟨fun hrunning ↦ ?_, hsignals ▸ h.signals⟩
  rw [hidle] at hrunning
  cases hrunning

theorem onlyDaemons_step_iff (event : Event) (s : Host) (h : OnlyDaemons s ∧ Named s) :
    OnlyDaemons (Host.step event s) ∧ Named (Host.step event s) ↔ event.Distinct s := by
  obtain ⟨honly, hnamed⟩ := h
  simp only [hnamed.step event, and_true]
  cases event with
  | create pid =>
      simp only [Host.step, Event.Distinct]
      split
      · next hfresh => simpa [hfresh] using onlyDaemons_create_iff honly hnamed hfresh
      · next hfresh => simp [hfresh, honly]
  | exit pid =>
      refine iff_of_true ?_ trivial
      simp only [Host.step]
      split
      · exact honly.put_none hnamed
      · exact honly
  | start pid child => exact iff_of_true (honly.start child) trivial
  | stop => exact iff_of_true (honly.stop hnamed) trivial
  | status => exact iff_of_true honly trivial
  | clean =>
      refine iff_of_true ?_ trivial
      simp only [Host.step]
      split
      · exact honly
      · exact onlyDaemons_of_idle honly rfl (isRunning_none _)
  | finish pid =>
      refine iff_of_true ?_ trivial
      simp only [Host.step]
      split
      · exact onlyDaemons_of_idle honly rfl (isRunning_none _)
      · exact honly
  | crash pid =>
      refine iff_of_true ?_ trivial
      simp only [Host.step]
      split
      · exact honly
      · exact honly.put_none hnamed
  | reboot =>
      refine iff_of_true (onlyDaemons_of_idle honly rfl ?_) trivial
      simp only [Host.step, Host.running, isRunning, Host.alive, Option.isSome_none]
      exact ite_self _

/-! ## Every history -/

/-- A machine without a state directory. -/
def Host.initial (others : Int32 → Bool) : Host where
  processes := fun pid ↦ if others pid then some .other else none
  pidFile := none
  signals := []

theorem onlyDaemons_initial (others : Int32 → Bool) :
    OnlyDaemons (.initial others) ∧ Named (.initial others) := by
  refine ⟨⟨fun hrunning ↦ ?_, by simp [Host.initial]⟩, ?_⟩
  · simp [Host.running, Host.initial] at hrunning
  · rintro q ⟨stopRequested, hprocess⟩
    simp only [Host.initial] at hprocess
    split at hprocess <;> cases hprocess

/-- In every history of commands, crashes, reboots and other processes: only
daemons show as running and only daemons are signalled, if and only if no
process is created under the number that the pid file holds at that time. -/
theorem always_onlyDaemons_iff (others : Int32 → Bool) (events : List Event) :
    Run.Always Host.step OnlyDaemons events (.initial others) ↔
      Run.Guarded Host.step Event.Distinct events (.initial others) := by
  have hinit := onlyDaemons_initial others
  have hnamed : Run.Always Host.step Named events (.initial others) :=
    Run.always_of_step Named.step events hinit.2
  rw [← Run.always_iff_guarded onlyDaemons_step_iff hinit, Run.always_and_iff]
  exact (and_iff_left hnamed).symm

/-- A daemon is killed, another process gets its number, and the stop command
signals that process. -/
theorem not_onlyDaemons_after_reuse :
    ¬ Run.Always Host.step OnlyDaemons
      [.create 10, .start 10 (some 11), .crash 11, .create 11, .stop]
      (.initial fun _ ↦ false) := by
  intro h
  exact h.last.signals (11, .other) (by decide +kernel) rfl

end BetterCpu.PidReuse
