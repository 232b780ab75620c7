import BetterCpu.DaemonControl
import BetterCpu.Library.Run
import BetterCpu.StartCommand.Restoration

/-!
# The shutdown of the daemon

One start command, step by step from the capture to the removal of the pid
file, with every write of the tuning and of the restore block a step of its
own.  Signals, stop and status commands come between any two steps.  While an
attribute may differ from its captured value, the pid file names the daemon
and the daemon is alive.  Every tick is one that returns: an exception in a tick
ends the daemon before the restore block.
-/

namespace BetterCpu.Shutdown

open Text DaemonControl

/-- Where the daemon is.  `tuning` is inside `apply_initial_state` or a tick,
with the actions that are left of it; `waiting` is before the loop condition;
`restoring` has the writes that are left of the restore block. -/
inductive Phase where
  | launched
  | saved
  | recorded
  | catchingTerm
  | tuning (rest : List Action)
  | waiting
  | stopped
  | restoring (rest : List (Attr × Text))
  | restored
  | exited

inductive Signal where
  | term
  | int

inductive Event where
  | advance (input : TickInput)
  | signal (signal : Signal)
  | stop
  | status
  | processes (others : Int32 → Bool)

structure Daemon where
  phase : Phase
  session : Session
  stopRequested : Bool
  backupFile : Option Text
  pidFile : Option Text
  others : Int32 → Bool

namespace Daemon

variable (k : Kernel) (m : Machine) (pid : Int32)

/-- The next step of `run_start_command` behind the check of the pid file.
What the sensors read is used by the steps that begin the tuning. -/
def advance (input : TickInput) (s : Daemon) : Daemon :=
  match s.phase with
  | .launched =>
      { s with
        phase := .saved
        backupFile := some (StateBackup.save (captureCurrentState m s.session.world.files)) }
  | .saved => { s with phase := .recorded, pidFile := some (pidText pid) }
  | .recorded =>
      { s with
        phase := .catchingTerm
        session := ⟨PolicyEngine.new m.cores, s.session.world⟩ }
  | .catchingTerm =>
      { s with phase := .tuning (initialActions s.session.engine.cores input.blocks) }
  | .tuning [] => { s with phase := .waiting }
  | .tuning (action :: rest) =>
      { s with phase := .tuning rest, session := action.run k s.session }
  | .waiting =>
      { s with
        phase := if s.stopRequested then .stopped
          else .tuning (tickActions s.session.engine.cores input) }
  | .stopped =>
      { s with
        phase := match StateBackup.load s.backupFile with
          | .error _ => .exited
          | .ok none => .restored
          | .ok (some savedState) => .restoring savedState.entries }
  | .restoring [] => { s with phase := .restored }
  | .restoring (entry :: rest) =>
      { s with
        phase := .restoring rest
        session := { s.session with
          world := (s.session.world.writeValue .willing entry.1 entry.2).2 } }
  | .restored => { s with phase := .exited, pidFile := none }
  | .exited => s

/-- `handle_termination_signal` once its handler is installed, and the default
action before that. -/
def receive (signal : Signal) (s : Daemon) : Daemon :=
  match s.phase, signal with
  | .launched, _ | .saved, _ | .recorded, _ | .catchingTerm, .int => { s with phase := .exited }
  | .exited, _ => s
  | _, _ => { s with stopRequested := true }

def dead (s : Daemon) : Bool :=
  match s.phase with
  | .exited => true
  | _ => false

def alive (s : Daemon) (p : Int32) : Bool :=
  s.others p || (!s.dead && p == pid)

/-- The checks of the stop and status commands change nothing, so a stop
command is the moment at which it signals, wherever its check was. -/
def step : Event → Daemon → Daemon
  | .advance input, s => s.advance k m pid input
  | .signal signal, s => s.receive signal
  | .stop, s => if stopTarget (s.alive pid) s.pidFile = some pid then s.receive .term else s
  | .status, s => s
  | .processes others, s => { s with others := others }

def files (s : Daemon) : Sysfs :=
  s.session.world.files

end Daemon

/-- The start command once its check of the pid file has passed. -/
def launch (m : Machine) (w : World) (backupFile pidFile : Option Text)
    (others : Int32 → Bool) : Daemon :=
  ⟨.launched, ⟨PolicyEngine.new m.cores, w⟩, false, backupFile, pidFile, others⟩

/-! ## The invariant -/

section Invariant

variable (m : Machine) (pid : Int32) (orig : Sysfs)

/-- Every captured attribute has its captured value, unless a write of it is
left. -/
def Pending (rest : List (Attr × Text)) (files : Sysfs) : Prop :=
  ∀ a ∈ (captureCurrentState m orig).entries.map Prod.fst,
    a ∈ rest.map Prod.fst ∨ files.value a = orig.value a

def Restored (files : Sysfs) : Prop :=
  ∀ a ∈ (captureCurrentState m orig).entries.map Prod.fst, files.value a = orig.value a

def BackedUp (s : Daemon) : Prop :=
  s.backupFile = some (StateBackup.save (captureCurrentState m orig))

def Named (s : Daemon) : Prop :=
  s.pidFile = some (pidText pid)

/-- What holds of the files in each phase. -/
def Sound (s : Daemon) : Prop :=
  match s.phase with
  | .launched => s.files = orig
  | .saved => s.files = orig ∧ BackedUp m orig s
  | .recorded | .catchingTerm => s.files = orig ∧ BackedUp m orig s ∧ Named pid s
  | .tuning _ | .waiting | .stopped => BackedUp m orig s ∧ Named pid s
  | .restoring rest => Named pid s ∧ rest ⊆ (captureCurrentState m orig).entries ∧
      Pending m orig rest s.files
  | .restored => Named pid s ∧ Restored m orig s.files
  | .exited => Restored m orig s.files

structure Inv (s : Daemon) : Prop where
  isSome_eq : ∀ a, (s.files a).isSome = (orig a).isSome
  sound : Sound m pid orig s

end Invariant

variable {k : Kernel} {m : Machine} {pid : Int32} {orig : Sysfs}

theorem restored_of_eq {files : Sysfs} (h : files = orig) : Restored m orig files := by
  intro a _
  rw [h]

theorem restored_of_pending_nil {files : Sysfs} (h : Pending m orig [] files) :
    Restored m orig files := by
  intro a ha
  simpa using h a ha

theorem pending_entries (files : Sysfs) :
    Pending m orig (captureCurrentState m orig).entries files :=
  fun _ ha ↦ Or.inl ha

/-- A value that can be read back: an active scheduler has a name. -/
def ReadsBack (m : Machine) (files : Sysfs) : Prop :=
  ∀ device ∈ m.devices, (files (.queueScheduler device)).isSome = true →
    IoStorage.currentScheduler files device ≠ []

theorem Pending.writeValue {entry : Attr × Text} {rest : List (Attr × Text)} {w : World}
    (hentry : orig.Agrees entry) (hvalue : (orig entry.1).isSome = true → entry.2 ≠ [])
    (hsome : ∀ a, (w.files a).isSome = (orig a).isSome)
    (h : Pending m orig (entry :: rest) w.files) :
    Pending m orig rest (w.writeValue .willing entry.1 entry.2).2.files := by
  intro a ha
  by_cases hself : a = entry.1
  · subst hself
    refine Or.inr (value_writeValue_of_accepted hentry hvalue hsome fun hpresent ↦ ?_)
    simp [World.answer, hsome, hpresent, Kernel.willing]
  · rcases h a ha with hleft | hvalue
    · exact Or.inl (by simpa [hself] using hleft)
    · exact Or.inr (value_writeValue_of_agrees hentry hsome hvalue)

theorem Inv.receive (signal : Signal) {s : Daemon} (h : Inv m pid orig s) :
    Inv m pid orig (s.receive signal) := by
  have hsome := h.isSome_eq
  have hsound := h.sound
  obtain ⟨phase, session, stopRequested, backupFile, pidFile, others⟩ := s
  cases phase with
  | launched => exact ⟨hsome, restored_of_eq hsound⟩
  | saved | recorded => exact ⟨hsome, restored_of_eq hsound.1⟩
  | catchingTerm =>
      cases signal with
      | term => exact ⟨hsome, hsound⟩
      | int => exact ⟨hsome, restored_of_eq hsound.1⟩
  | _ => exact ⟨hsome, hsound⟩

section Steps

variable (hload : StateBackup.load (some (StateBackup.save (captureCurrentState m orig))) =
    .ok (some (captureCurrentState m orig))) (hreads : ReadsBack m orig)

include hload hreads in
theorem Inv.advance (input : TickInput) {s : Daemon} (h : Inv m pid orig s) :
    Inv m pid orig (s.advance k m pid input) := by
  have hgovernor := governor_ne_nil_of_decodable
    ((StateBackup.load_save_eq_iff _ (captureCurrentState_wellFormed m orig)).mp hload)
  have hsome := h.isSome_eq
  have hsound := h.sound
  obtain ⟨phase, session, stopRequested, backupFile, pidFile, others⟩ := s
  cases phase with
  | launched =>
      have hfiles : session.world.files = orig := hsound
      refine ⟨hsome, hfiles, ?_⟩
      simp only [BackedUp, Daemon.advance, hfiles]
  | saved => exact ⟨hsome, hsound.1, hsound.2, rfl⟩
  | recorded => exact ⟨hsome, hsound⟩
  | catchingTerm => exact ⟨hsome, hsound.2⟩
  | tuning rest =>
      cases rest with
      | nil => exact ⟨hsome, hsound⟩
      | cons action rest =>
          have hwrites := Action.run_writes k action session
          exact ⟨fun a ↦ (hwrites.isSome_eq a).trans (hsome a), hsound⟩
  | waiting =>
      cases stopRequested with
      | true => exact ⟨hsome, hsound⟩
      | false => exact ⟨hsome, hsound⟩
  | stopped =>
      obtain ⟨hbackup, hnamed⟩ : backupFile = _ ∧ Named pid _ := hsound
      subst hbackup
      refine ⟨hsome, ?_⟩
      simp only [Daemon.advance, hload]
      exact ⟨hnamed, List.Subset.refl _, pending_entries _⟩
  | restoring rest =>
      cases rest with
      | nil => exact ⟨hsome, hsound.1, restored_of_pending_nil hsound.2.2⟩
      | cons entry rest =>
          obtain ⟨hnamed, hsub, hpending⟩ := hsound
          have hentry := hsub List.mem_cons_self
          refine ⟨fun a ↦ (World.isSome_writeValue_files _ _ a _ _).trans (hsome a), hnamed,
            fun e he ↦ hsub (List.mem_cons_of_mem _ he), ?_⟩
          refine Pending.writeValue (agrees_of_mem_entries hgovernor hentry) ?_ hsome hpending
          intro hpresent
          apply ne_nil_of_mem_entries hgovernor hentry
          intro device hdevice hattr
          exact hreads device hdevice (hattr ▸ hpresent)
  | restored => exact ⟨hsome, hsound.2⟩
  | exited => exact ⟨hsome, hsound⟩

include hload hreads in
theorem Inv.step (event : Event) (s : Daemon) (h : Inv m pid orig s) :
    Inv m pid orig (Daemon.step k m pid event s) := by
  cases event with
  | advance input => exact Inv.advance hload hreads input h
  | signal signal => exact h.receive signal
  | stop =>
      simp only [Daemon.step]
      split
      · exact h.receive .term
      · exact h
  | status => exact h
  | processes others => exact ⟨h.isSome_eq, h.sound⟩

end Steps

/-- A daemon that the pid file does not show as running has changed nothing,
or has restored everything. -/
theorem Inv.restored {s : Daemon} (h : Inv m pid orig s) (hpid : 0 < pid)
    (hidle : isRunning (s.alive pid) s.pidFile = false) : Restored m orig s.files := by
  have hsound := h.sound
  have hdead (hnamed : Named pid s) : s.dead = true := by
    rw [hnamed, isRunning_pidText hpid] at hidle
    simp only [Daemon.alive, beq_self_eq_true, Bool.and_true, Bool.or_eq_false_iff,
      Bool.not_eq_false'] at hidle
    exact hidle.2
  obtain ⟨phase, session, stopRequested, backupFile, pidFile, others⟩ := s
  cases phase with
  | launched => exact restored_of_eq hsound
  | saved => exact restored_of_eq hsound.1
  | recorded | catchingTerm => cases hdead hsound.2.2
  | tuning | waiting | stopped => cases hdead hsound.2
  | restoring | restored => cases hdead hsound.1
  | exited => exact hsound

theorem inv_launch (m : Machine) (pid : Int32) (w : World) (backupFile pidFile : Option Text)
    (others : Int32 → Bool) : Inv m pid w.files (launch m w backupFile pidFile others) :=
  ⟨fun _ ↦ rfl, rfl⟩

/-! ## The stop flag -/

/-- The phases behind the loop. -/
def Phase.leaving : Phase → Bool
  | .stopped | .restoring _ | .restored | .exited => true
  | _ => false

theorem leaving_advance (input : TickInput) {s : Daemon} (h : s.phase.leaving = true) :
    (s.advance k m pid input).phase.leaving = true := by
  obtain ⟨phase, session, stopRequested, backupFile, pidFile, others⟩ := s
  cases phase with
  | stopped =>
      simp only [Daemon.advance]
      split <;> rfl
  | restoring rest => cases rest <;> rfl
  | restored | exited => rfl
  | _ => cases h

theorem leaving_receive (signal : Signal) {s : Daemon} (h : s.phase.leaving = true) :
    (s.receive signal).phase.leaving = true := by
  obtain ⟨phase, session, stopRequested, backupFile, pidFile, others⟩ := s
  cases phase with
  | stopped | restoring | restored | exited => exact h
  | _ => cases h

theorem leaving_step (event : Event) (s : Daemon) (h : s.phase.leaving = true) :
    (Daemon.step k m pid event s).phase.leaving = true := by
  cases event with
  | advance input => exact leaving_advance input h
  | signal signal => exact leaving_receive signal h
  | stop =>
      simp only [Daemon.step]
      split
      · exact leaving_receive .term h
      · exact h
  | status | processes => exact h

theorem not_tuning_of_leaving {phase : Phase} (h : phase.leaving = true) (actions : List Action) :
    phase ≠ .tuning actions := by
  rintro rfl
  cases h

/-! ## The steps of a tick and of the restore block -/

/-- Left alone, the steps of the tuning perform its actions. -/
theorem exec_tuning (input : TickInput) (actions : List Action) (s : Daemon) :
    Run.exec (Daemon.step k m pid) (List.replicate (actions.length + 1) (.advance input))
      { s with phase := .tuning actions } =
        { s with phase := .waiting, session := Action.runAll k actions s.session } := by
  induction actions generalizing s with
  | nil => rfl
  | cons action actions ih =>
      exact ih { s with session := action.run k s.session }

theorem exec_tick (input : TickInput) {s : Daemon} (hwaiting : s.phase = .waiting)
    (hflag : s.stopRequested = false) :
    Run.exec (Daemon.step k m pid)
      (List.replicate ((tickActions s.session.engine.cores input).length + 2) (.advance input)) s =
        { s with session := s.session.tick k input } := by
  obtain ⟨phase, session, stopRequested, backupFile, pidFile, others⟩ := s
  subst hwaiting hflag
  rw [Action.tick_eq]
  exact exec_tuning input _ ⟨.waiting, session, false, backupFile, pidFile, others⟩

theorem exec_restoring (input : TickInput) (entries : List (Attr × Text)) (s : Daemon) :
    Run.exec (Daemon.step k m pid) (List.replicate (entries.length + 1) (.advance input))
      { s with phase := .restoring entries } =
        { s with
          phase := .restored
          session := { s.session with world := writeBack .willing entries s.session.world } } := by
  induction entries generalizing s with
  | nil => rfl
  | cons entry entries ih =>
      exact ih { s with
        session := { s.session with
          world := (s.session.world.writeValue .willing entry.1 entry.2).2 } }

theorem exec_restore (input : TickInput) {s : Daemon} {savedState : SystemStateBackup}
    (hstopped : s.phase = .stopped)
    (hload : StateBackup.load s.backupFile = .ok (some savedState)) :
    Run.exec (Daemon.step k m pid)
      (List.replicate (savedState.entries.length + 2) (.advance input)) s =
        { s with
          phase := .restored
          session := { s.session with
            world := restoreBlock .willing (some savedState) s.session.world } } := by
  obtain ⟨phase, session, stopRequested, backupFile, pidFile, others⟩ := s
  subst hstopped
  rw [restoreBlock_eq, List.replicate_succ, Run.exec_cons]
  have hstep : Daemon.step k m pid (.advance input)
      ⟨.stopped, session, stopRequested, backupFile, pidFile, others⟩ =
        ⟨.restoring savedState.entries, session, stopRequested, backupFile, pidFile, others⟩ := by
    simp only [Daemon.step, Daemon.advance, hload]
  rw [hstep]
  exact exec_restoring input _ ⟨.stopped, session, stopRequested, backupFile, pidFile, others⟩

/-! ## Every interleaving -/

/-- In every interleaving, whenever the pid file does not show a running
daemon, every captured attribute has its captured value; and once the loop
condition has seen the stop flag, no tick begins. -/
theorem shutdown_restores (k : Kernel) (m : Machine) (pid : Int32) (w : World)
    (backupFile pidFile : Option Text) (others : Int32 → Bool) (events : List Event)
    (hpid : 0 < pid)
    (hload : StateBackup.load (some (StateBackup.save (captureCurrentState m w.files))) =
      .ok (some (captureCurrentState m w.files)))
    (hreads : ReadsBack m w.files) :
    Run.Always (Daemon.step k m pid) (fun s ↦ isRunning (s.alive pid) s.pidFile = false →
        Restored m w.files s.files) events (launch m w backupFile pidFile others) ∧
      ∀ (done later : List Event) (input : TickInput),
        let s := Run.exec (Daemon.step k m pid) done (launch m w backupFile pidFile others)
        s.phase = .waiting → s.stopRequested = true →
          Run.Always (Daemon.step k m pid) (fun t ↦ ∀ actions, t.phase ≠ .tuning actions) later
            (Daemon.step k m pid (.advance input) s) := by
  constructor
  · have hinv : Run.Always (Daemon.step k m pid) (Inv m pid w.files) events
        (launch m w backupFile pidFile others) :=
      Run.always_of_step (Inv.step hload hreads) events
        (inv_launch m pid w backupFile pidFile others)
    exact hinv.imp fun s hs hidle ↦ hs.restored hpid hidle
  · intro done later input s hwaiting hflag
    have hleaving : (Daemon.step k m pid (.advance input) s).phase.leaving = true := by
      simp only [Daemon.step, Daemon.advance, hwaiting, hflag, if_true, Phase.leaving]
    have halways : Run.Always (Daemon.step k m pid) (fun t ↦ t.phase.leaving = true) later
        (Daemon.step k m pid (.advance input) s) :=
      Run.always_of_step leaving_step later hleaving
    exact halways.imp fun t ht ↦ not_tuning_of_leaving ht

def sampleEvents : List Event :=
  List.replicate 8 (.advance sampleTick) ++ .stop :: List.replicate 30 (.advance sampleTick)

def sampleLaunch : Daemon :=
  launch sampleMachine ⟨Session.sampleFiles, [], []⟩ none none fun _ ↦ false

theorem shutdown_restores_sample :
    Run.Always (Daemon.step Session.withoutSchedutil sampleMachine 7) (fun s ↦
        isRunning (s.alive 7) s.pidFile = false →
          Restored sampleMachine Session.sampleFiles s.files) sampleEvents sampleLaunch ∧
      (Run.exec (Daemon.step Session.withoutSchedutil sampleMachine 7) sampleEvents
        sampleLaunch).dead = true :=
  ⟨(shutdown_restores Session.withoutSchedutil sampleMachine 7 ⟨Session.sampleFiles, [], []⟩ none
    none (fun _ ↦ false) sampleEvents (by decide) sampleMachine_capturable.load_save
    fun device hdevice _ ↦ sampleMachine_capturable.scheduler device hdevice).1,
    by decide +kernel⟩

end BetterCpu.Shutdown
