import BetterCpu.DaemonControl.Shutdown

/-!
# How long a stop takes

Once the flag is set behind the installation of the handlers, the daemon has so
many steps left, and what comes between them does not matter: the tick that is
under way is finished, no other one begins, and the backup is written back.
-/

namespace BetterCpu.Shutdown

open Text DaemonControl

/-- Both handlers are installed. -/
def Phase.begun : Phase → Bool
  | .launched | .saved | .recorded | .catchingTerm => false
  | _ => true

def Event.isAdvance : Event → Bool
  | .advance _ => true
  | _ => false

namespace Daemon

variable (k : Kernel) (s : Daemon)

/-- The steps of the daemon behind the loop. -/
def stepsBehindLoop : ℕ :=
  match StateBackup.load s.backupFile with
  | .error _ => 1
  | .ok none => 2
  | .ok (some savedState) => savedState.entries.length + 3

/-- The steps that are left once the flag is set. -/
def stepsLeft : ℕ :=
  match s.phase with
  | .tuning rest => rest.length + 2 + s.stepsBehindLoop
  | .waiting => 1 + s.stepsBehindLoop
  | .stopped => s.stepsBehindLoop
  | .restoring rest => rest.length + 2
  | .restored => 1
  | _ => 0

/-- The pid file and the session that the steps behind the loop leave. -/
def endingBehindLoop (session : Session) : Option Text × Session :=
  match StateBackup.load s.backupFile with
  | .error _ => (s.pidFile, session)
  | .ok savedState =>
      (none, { session with world := restoreBlock .willing savedState session.world })

/-- The pid file and the session that the steps which are left leave. -/
def ending : Option Text × Session :=
  match s.phase with
  | .tuning rest => s.endingBehindLoop (Action.runAll k rest s.session)
  | .waiting | .stopped => s.endingBehindLoop s.session
  | .restoring rest =>
      (none, { s.session with world := writeBack .willing rest s.session.world })
  | .restored => (none, s.session)
  | _ => (s.pidFile, s.session)

/-- The flag is set, and the next check of it is the one of the loop. -/
structure Stopping : Prop where
  begun : s.phase.begun = true
  stopRequested : s.stopRequested = true

end Daemon

/-! ## One step -/

variable {k : Kernel} {m : Machine} {pid : Int32} {s : Daemon}

theorem receive_of_stopping (h : s.Stopping) (signal : Signal) : s.receive signal = s := by
  obtain ⟨hbegun, hflag⟩ := h
  obtain ⟨phase, session, stopRequested, backupFile, pidFile, others⟩ := s
  subst hflag
  cases phase with
  | launched | saved | recorded | catchingTerm => cases hbegun
  | _ => rfl

theorem stepsBehindLoop_pos (s : Daemon) : 0 < s.stepsBehindLoop := by
  unfold Daemon.stepsBehindLoop
  split <;> omega

/-- Behind the loop, the backup decides on what is done. -/
theorem advance_stopped (input : TickInput) (session : Session) (backupFile pidFile : Option Text)
    (others : Int32 → Bool) :
    let s : Daemon := ⟨.stopped, session, true, backupFile, pidFile, others⟩
    (s.advance k m pid input).Stopping ∧
      (s.advance k m pid input).stepsLeft = s.stepsBehindLoop - 1 ∧
        (s.advance k m pid input).ending k = s.endingBehindLoop session := by
  intro s
  have hstep : s.advance k m pid input = { s with
      phase := match StateBackup.load backupFile with
        | .error _ => .exited
        | .ok none => .restored
        | .ok (some savedState) => .restoring savedState.entries } := rfl
  have hbehind : s.stepsBehindLoop = match StateBackup.load backupFile with
      | .error _ => 1
      | .ok none => 2
      | .ok (some savedState) => savedState.entries.length + 3 := rfl
  have hending : s.endingBehindLoop session = match StateBackup.load backupFile with
      | .error _ => (pidFile, session)
      | .ok savedState =>
          (none, { session with world := restoreBlock .willing savedState session.world }) := rfl
  rw [hstep, hbehind, hending]
  cases StateBackup.load backupFile with
  | error e => exact ⟨⟨rfl, rfl⟩, rfl, rfl⟩
  | ok savedState =>
      cases savedState with
      | none => exact ⟨⟨rfl, rfl⟩, rfl, rfl⟩
      | some savedState =>
          simp only [restoreBlock_eq]
          exact ⟨⟨rfl, rfl⟩, rfl, rfl⟩

/-- A step of its own brings the daemon nearer to its end. -/
theorem advance_of_stopping (h : s.Stopping) (input : TickInput) :
    (s.advance k m pid input).Stopping ∧
      (s.advance k m pid input).stepsLeft = s.stepsLeft - 1 ∧
        (s.advance k m pid input).ending k = s.ending k := by
  obtain ⟨hbegun, hflag⟩ := h
  obtain ⟨phase, session, stopRequested, backupFile, pidFile, others⟩ := s
  subst hflag
  cases phase with
  | launched | saved | recorded | catchingTerm => cases hbegun
  | tuning rest =>
      cases rest with
      | nil =>
          refine ⟨⟨rfl, rfl⟩, ?_, rfl⟩
          simp only [Daemon.advance, Daemon.stepsLeft, Daemon.stepsBehindLoop, List.length_nil]
          omega
      | cons action rest =>
          refine ⟨⟨rfl, rfl⟩, ?_, rfl⟩
          simp only [Daemon.advance, Daemon.stepsLeft, Daemon.stepsBehindLoop, List.length_cons]
          omega
  | waiting =>
      refine ⟨⟨rfl, rfl⟩, ?_, rfl⟩
      simp only [Daemon.advance, Daemon.stepsLeft, Daemon.stepsBehindLoop, if_true]
      omega
  | stopped => exact advance_stopped input session backupFile pidFile others
  | restoring rest => cases rest <;> exact ⟨⟨rfl, rfl⟩, rfl, rfl⟩
  | restored | exited => exact ⟨⟨rfl, rfl⟩, rfl, rfl⟩

/-- The other events neither speed the daemon up nor hold it back. -/
theorem step_of_stopping (h : s.Stopping) (event : Event) :
    (Daemon.step k m pid event s).Stopping ∧
      (Daemon.step k m pid event s).stepsLeft =
          (if event.isAdvance then s.stepsLeft - 1 else s.stepsLeft) ∧
        (Daemon.step k m pid event s).ending k = s.ending k := by
  cases event with
  | advance input => exact advance_of_stopping h input
  | signal signal =>
      have hstep : Daemon.step k m pid (.signal signal) s = s := receive_of_stopping h signal
      rw [hstep]
      exact ⟨h, rfl, rfl⟩
  | stop =>
      have hstep : Daemon.step k m pid .stop s = s := by
        rw [Daemon.step, receive_of_stopping h, ite_self]
      rw [hstep]
      exact ⟨h, rfl, rfl⟩
  | status => exact ⟨h, rfl, rfl⟩
  | processes others => exact ⟨⟨h.begun, h.stopRequested⟩, rfl, rfl⟩

/-! ## Every run -/

theorem dead_iff_stepsLeft (h : s.Stopping) : s.dead = true ↔ s.stepsLeft = 0 := by
  have hpos := stepsBehindLoop_pos s
  obtain ⟨hbegun, hflag⟩ := h
  obtain ⟨phase, session, stopRequested, backupFile, pidFile, others⟩ := s
  cases phase with
  | launched | saved | recorded | catchingTerm => cases hbegun
  | exited => exact iff_of_true rfl rfl
  | _ =>
      refine iff_of_false Bool.false_ne_true ?_
      simp only [Daemon.stepsLeft]
      omega

theorem exec_of_stopping (h : s.Stopping) (events : List Event) :
    (Run.exec (Daemon.step k m pid) events s).Stopping ∧
      (Run.exec (Daemon.step k m pid) events s).ending k = s.ending k := by
  have hstep (event : Event) (t : Daemon) (ht : t.Stopping ∧ t.ending k = s.ending k) :
      (Daemon.step k m pid event t).Stopping ∧
        (Daemon.step k m pid event t).ending k = s.ending k := by
    obtain ⟨hnext, -, hending⟩ := @step_of_stopping k m pid t ht.1 event
    exact ⟨hnext, hending.trans ht.2⟩
  exact Run.exec_invariant (fun event _ t ht ↦ hstep event t ht) ⟨h, rfl⟩

theorem dead_exec_iff (h : s.Stopping) (events : List Event) :
    (Run.exec (Daemon.step k m pid) events s).dead = true ↔
      s.stepsLeft ≤ events.countP Event.isAdvance := by
  have hstep (event : Event) (t : Daemon) (ht : t.Stopping) :
      (Daemon.step k m pid event t).Stopping ∧ (Daemon.step k m pid event t).stepsLeft =
        if event.isAdvance then t.stepsLeft - 1 else t.stepsLeft := by
    obtain ⟨hnext, hleft, -⟩ := @step_of_stopping k m pid t ht event
    exact ⟨hnext, hleft⟩
  rw [dead_iff_stepsLeft (exec_of_stopping h events).1,
    Run.exec_countdown Daemon.stepsLeft Event.isAdvance hstep events h, Nat.sub_eq_zero_iff_le]

theorem ending_of_dead (h : s.dead = true) : s.ending k = (s.pidFile, s.session) := by
  obtain ⟨phase, session, stopRequested, backupFile, pidFile, others⟩ := s
  cases phase with
  | exited => rfl
  | _ => cases h

section Launch

variable {orig : Sysfs}

/-- The backup of a launch is read, so the pid file will be removed. -/
theorem pidFile_ending (hload : StateBackup.load
      (some (StateBackup.save (captureCurrentState m orig))) =
        .ok (some (captureCurrentState m orig)))
    (hinv : Inv m pid orig s) (hbegun : s.phase.begun = true) (halive : s.dead = false) :
    (s.ending k).1 = none := by
  have hsound := hinv.sound
  have hbehind (hbackup : BackedUp m orig s) (session : Session) :
      (s.endingBehindLoop session).1 = none := by
    rw [Daemon.endingBehindLoop, hbackup, hload]
  obtain ⟨phase, session, stopRequested, backupFile, pidFile, others⟩ := s
  cases phase with
  | launched | saved | recorded | catchingTerm => cases hbegun
  | tuning | waiting | stopped => exact hbehind hsound.1 _
  | restoring | restored => rfl
  | exited => cases halive

theorem named_of_begun (hinv : Inv m pid orig s) (hbegun : s.phase.begun = true)
    (halive : s.dead = false) : Named pid s := by
  have hsound := hinv.sound
  obtain ⟨phase, session, stopRequested, backupFile, pidFile, others⟩ := s
  cases phase with
  | launched | saved | recorded | catchingTerm => cases hbegun
  | tuning | waiting | stopped => exact hsound.2
  | restoring | restored => exact hsound.1
  | exited => cases halive

theorem restored_of_dead (hinv : Inv m pid orig s) (hdead : s.dead = true) :
    Restored m orig s.files := by
  have hsound := hinv.sound
  obtain ⟨phase, session, stopRequested, backupFile, pidFile, others⟩ := s
  cases phase with
  | exited => exact hsound
  | _ => cases hdead

end Launch

/-- A daemon that has its handlers and the flag comes to its end with so many
steps of its own, not earlier and not later, and what it leaves does not depend
on what happens between them: the rest of the tick, the captured values and no
pid file.  Until then the pid file names it. -/
theorem stop_obeyed (k : Kernel) (m : Machine) (pid : Int32) (w : World)
    (backupFile pidFile : Option Text) (others : Int32 → Bool) (done later : List Event)
    (hload : StateBackup.load (some (StateBackup.save (captureCurrentState m w.files))) =
      .ok (some (captureCurrentState m w.files)))
    (hreads : ReadsBack m w.files) :
    let s := Run.exec (Daemon.step k m pid) done (launch m w backupFile pidFile others)
    let t := Run.exec (Daemon.step k m pid) later s
    s.Stopping → s.dead = false →
      (t.dead = true ↔ s.stepsLeft ≤ later.countP Event.isAdvance) ∧
        (t.dead = false → t.pidFile = some (pidText pid)) ∧
        (t.dead = true →
          t.pidFile = none ∧ t.session = (s.ending k).2 ∧ Restored m w.files t.files) := by
  intro s t hstopping halive
  have hinv (events : List Event) (s : Daemon) (hs : Inv m pid w.files s) :
      Inv m pid w.files (Run.exec (Daemon.step k m pid) events s) :=
    Run.exec_invariant (fun event _ ↦ Inv.step hload hreads event) hs
  have hs : Inv m pid w.files s := hinv done _ (inv_launch m pid w backupFile pidFile others)
  have ht : Inv m pid w.files t := hinv later s hs
  obtain ⟨hlater, hending⟩ := @exec_of_stopping k m pid s hstopping later
  refine ⟨dead_exec_iff hstopping later, fun hnot ↦ ?_, fun hdead ↦ ?_⟩
  · exact named_of_begun ht hlater.begun hnot
  · have heq : (t.pidFile, t.session) = s.ending k := (ending_of_dead hdead).symm.trans hending
    refine ⟨?_, congrArg Prod.snd heq, restored_of_dead ht hdead⟩
    exact (congrArg Prod.fst heq).trans (pidFile_ending hload hs hstopping.begun halive)

/-- A stop command within the first tick. -/
theorem stop_obeyed_sample :
    let s := Run.exec (Daemon.step Session.withoutSchedutil sampleMachine 7)
      (List.replicate 8 (.advance sampleTick) ++ [.stop]) sampleLaunch
    let t := Run.exec (Daemon.step Session.withoutSchedutil sampleMachine 7)
      (List.replicate 30 (.advance sampleTick)) s
    t.dead = true ∧ t.pidFile = none := by
  intro s t
  obtain ⟨hdead, -, hleft⟩ := stop_obeyed Session.withoutSchedutil sampleMachine 7
    ⟨Session.sampleFiles, [], []⟩ none none (fun _ ↦ false)
    (List.replicate 8 (.advance sampleTick) ++ [.stop]) (List.replicate 30 (.advance sampleTick))
    sampleMachine_capturable.load_save
    (fun device hdevice _ ↦ sampleMachine_capturable.scheduler device hdevice)
    ⟨by decide +kernel, by decide +kernel⟩ (by decide +kernel)
  have hend : t.dead = true := hdead.mpr (by decide +kernel)
  exact ⟨hend, (hleft hend).1⟩

end BetterCpu.Shutdown
