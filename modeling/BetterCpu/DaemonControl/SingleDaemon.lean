import BetterCpu.Library.Run
import BetterCpu.DaemonControl

/-!
# Concurrent start commands

Any number of start commands interleave their steps.  The check of the pid
file and its writing are separate steps, so two commands that have both passed
the check both reach the loop.  A run in which no check passes while another
command stands between the two has a single daemon.
-/

namespace BetterCpu.SingleDaemon

open DaemonControl

inductive Phase where
  | launched
  | checked
  | confirmed
  | saved
  | detached
  | recorded
  | looping
  | exited
  deriving DecidableEq, Repr

/-- A start command; `boot` is the one that systemd launches, which asks for no
confirmation and stays in the foreground. -/
structure Command where
  pid : Int32
  boot : Bool
  phase : Phase
  deriving DecidableEq

structure Host where
  commands : List Command
  pidFile : Option Text
  others : Int32 → Bool

inductive Action where
  | check
  | answer (yes : Bool)
  | save
  | daemonize (pid : Int32)
  | writePidFile
  | enterLoop

inductive Event where
  | launch (pid : Int32) (boot : Bool)
  | act (i : ℕ) (action : Action)

namespace Host

def alive (s : Host) (pid : Int32) : Bool :=
  s.others pid || s.commands.any fun c ↦ c.phase != .exited && c.pid == pid

def Fresh (s : Host) (pid : Int32) : Prop :=
  0 < pid ∧ s.alive pid = false

instance (s : Host) (pid : Int32) : Decidable (s.Fresh pid) :=
  inferInstanceAs (Decidable (_ ∧ _))

def put (i : ℕ) (c : Command) (s : Host) : Host :=
  { s with commands := s.commands.set i c }

def record (i : ℕ) (c : Command) (s : Host) : Host :=
  { s.put i { c with phase := .recorded } with pidFile := some (pidText c.pid) }

/-- A step of the command `c` with index `i`; one that is not its next step
does nothing.  Between its two forks the command has no other effect, so
`daemonize` is one step that changes the pid. -/
def perform (i : ℕ) (c : Command) (s : Host) : Action → Host
  | .check =>
      if c.phase = .launched then
        s.put i { c with phase := if isRunning s.alive s.pidFile then .exited else .checked }
      else s
  | .answer yes =>
      if c.phase = .checked then
        s.put i { c with phase := if c.boot || yes then .confirmed else .exited }
      else s
  | .save => if c.phase = .confirmed then s.put i { c with phase := .saved } else s
  | .daemonize pid =>
      if c.phase = .saved ∧ c.boot = false ∧ s.Fresh pid then
        s.put i { c with pid := pid, phase := .detached }
      else s
  | .writePidFile =>
      if c.phase = .detached ∨ c.phase = .saved ∧ c.boot = true then s.record i c else s
  | .enterLoop => if c.phase = .recorded then s.put i { c with phase := .looping } else s

def step : Event → Host → Host
  | .launch pid boot, s =>
      if s.Fresh pid then { s with commands := s.commands ++ [⟨pid, boot, .launched⟩] } else s
  | .act i action, s =>
      match s.commands[i]? with
      | none => s
      | some c => s.perform i c action

end Host

/-- At most one daemon is in its loop, and the pid file names it. -/
structure Single (s : Host) : Prop where
  unique : ∀ (i j : ℕ) (c d : Command), s.commands[i]? = some c → s.commands[j]? = some d →
    c.phase = .looping → d.phase = .looping → i = j
  named : ∀ (i : ℕ) (c : Command), s.commands[i]? = some c → c.phase = .looping →
    readPid s.pidFile = c.pid

def Phase.pending : Phase → Bool
  | .checked | .confirmed | .saved | .detached => true
  | _ => false

def Phase.settled : Phase → Bool
  | .recorded | .looping => true
  | _ => false

/-- No check passes while another command is pending. -/
def Event.Exclusive : Event → Host → Prop
  | .act i .check, s => ∀ c, s.commands[i]? = some c → c.phase = .launched →
      isRunning s.alive s.pidFile = false → ∀ d ∈ s.commands, d.phase.pending = false
  | _, _ => True

/-! ## What a step does -/

/-- A step does nothing, moves the command without engaging or recording it,
lets it pass the check, or records it. -/
inductive Effect (i : ℕ) (c : Command) (s : Host) : Action → Host → Prop
  | skip (action : Action) : Effect i c s action s
  | move (action : Action) (c' : Command) (hpos : 0 < c.pid → 0 < c'.pid)
      (hpending : c'.phase.pending = true → c.phase.pending = true)
      (hsettled : c'.phase.settled = true → c.phase.settled = true ∧ c'.pid = c.pid) :
      Effect i c s action (s.put i c')
  | pass (hlaunched : c.phase = .launched) (hidle : isRunning s.alive s.pidFile = false) :
      Effect i c s .check (s.put i { c with phase := .checked })
  | record (action : Action) (hpending : c.phase.pending = true) :
      Effect i c s action (s.record i c)

theorem perform_effect (i : ℕ) (c : Command) (s : Host) (action : Action) :
    Effect i c s action (s.perform i c action) := by
  cases action with
  | check =>
      simp only [Host.perform]
      split
      · next hlaunched =>
          cases hrunning : isRunning s.alive s.pidFile with
          | true => exact .move _ _ id (by simp [Phase.pending]) (by simp [Phase.settled])
          | false => exact .pass hlaunched hrunning
      · exact .skip _
  | answer yes =>
      simp only [Host.perform]
      split
      · next hchecked =>
          refine .move _ _ id (fun _ ↦ by simp [hchecked, Phase.pending]) ?_
          dsimp only
          split <;> simp [Phase.settled]
      · exact .skip _
  | save =>
      simp only [Host.perform]
      split
      · next hconfirmed =>
          exact .move _ _ id (fun _ ↦ by simp [hconfirmed, Phase.pending]) (by simp [Phase.settled])
      · exact .skip _
  | daemonize pid =>
      simp only [Host.perform]
      split
      · next hsaved =>
          exact .move _ _ (fun _ ↦ hsaved.2.2.1) (fun _ ↦ by simp [hsaved.1, Phase.pending])
            (by simp [Phase.settled])
      · exact .skip _
  | writePidFile =>
      simp only [Host.perform]
      split
      · next hready =>
          apply Effect.record
          rcases hready with hdetached | ⟨hsaved, -⟩
          · simp [hdetached, Phase.pending]
          · simp [hsaved, Phase.pending]
      · exact .skip _
  | enterLoop =>
      simp only [Host.perform]
      split
      · next hrecorded =>
          exact .move _ _ id (by simp [Phase.pending])
            (fun _ ↦ ⟨by simp [hrecorded, Phase.settled], rfl⟩)
      · exact .skip _

/-! ## The invariant -/

/-- At most one command is pending or settled, and the pid file names a settled
one. -/
structure Inv (s : Host) : Prop where
  pid_pos : ∀ (i : ℕ) (c : Command), s.commands[i]? = some c → 0 < c.pid
  exclusive : ∀ (i j : ℕ) (c d : Command), s.commands[i]? = some c → s.commands[j]? = some d →
    (c.phase.pending || c.phase.settled) = true → (d.phase.pending || d.phase.settled) = true →
      i = j
  named : ∀ (i : ℕ) (c : Command), s.commands[i]? = some c → c.phase.settled = true →
    readPid s.pidFile = c.pid

theorem Inv.single {s : Host} (h : Inv s) : Single s where
  unique i j c d hc hd hloopc hloopd :=
    h.exclusive i j c d hc hd (by simp [hloopc, Phase.settled]) (by simp [hloopd, Phase.settled])
  named i c hc hloop := h.named i c hc (by simp [hloop, Phase.settled])

theorem getElem?_set_cases {α : Type*} {xs : List α} {i j : ℕ} {x y : α}
    (h : (xs.set i x)[j]? = some y) : j = i ∧ y = x ∨ j ≠ i ∧ xs[j]? = some y := by
  rw [List.getElem?_set] at h
  grind

theorem Inv.isRunning_of_settled {s : Host} (h : Inv s) {i : ℕ} {c : Command}
    (hc : s.commands[i]? = some c) (hsettled : c.phase.settled = true) :
    isRunning s.alive s.pidFile = true := by
  have hpid := h.named i c hc hsettled
  apply isRunning_of_alive (hpid ▸ h.pid_pos i c hc)
  have hphase : (c.phase != .exited) = true := by
    cases hp : c.phase <;> simp_all [Phase.settled]
  simp only [Host.alive, hpid, Bool.or_eq_true, List.any_eq_true, Bool.and_eq_true, beq_iff_eq]
  exact Or.inr ⟨c, List.mem_of_getElem? hc, hphase, rfl⟩

theorem Inv.exclusive_put {s : Host} (h : Inv s) {i : ℕ} {c c' : Command}
    (hc : s.commands[i]? = some c)
    (hengaged : (c'.phase.pending || c'.phase.settled) = true →
      (c.phase.pending || c.phase.settled) = true) {j l : ℕ} {d e : Command}
    (hd : (s.put i c').commands[j]? = some d) (he : (s.put i c').commands[l]? = some e)
    (hdphase : (d.phase.pending || d.phase.settled) = true)
    (hephase : (e.phase.pending || e.phase.settled) = true) : j = l := by
  rcases getElem?_set_cases hd with ⟨rfl, rfl⟩ | ⟨-, hd'⟩ <;>
    rcases getElem?_set_cases he with ⟨rfl, rfl⟩ | ⟨-, he'⟩
  · rfl
  · exact h.exclusive _ _ _ _ hc he' (hengaged hdphase) hephase
  · exact h.exclusive _ _ _ _ hd' hc hdphase (hengaged hephase)
  · exact h.exclusive _ _ _ _ hd' he' hdphase hephase

theorem Inv.pid_pos_put {s : Host} (h : Inv s) {i : ℕ} {c c' : Command}
    (hc : s.commands[i]? = some c) {j : ℕ} {d : Command}
    (hd : (s.put i c').commands[j]? = some d) (hpos : 0 < c.pid → 0 < c'.pid) : 0 < d.pid := by
  rcases getElem?_set_cases hd with ⟨-, rfl⟩ | ⟨-, hd⟩
  · exact hpos (h.pid_pos i c hc)
  · exact h.pid_pos j d hd

theorem Inv.of_effect {s s' : Host} (h : Inv s) {i : ℕ} {c : Command} {action : Action}
    (hc : s.commands[i]? = some c) (heffect : Effect i c s action s')
    (hguard : (Event.act i action).Exclusive s) : Inv s' := by
  cases heffect with
  | skip => exact h
  | move _ c' hpos hpending hsettled =>
      refine ⟨fun j d hd ↦ h.pid_pos_put hc hd hpos, fun j l d e hd he ↦
        h.exclusive_put hc ?_ hd he, fun j d hd hdphase ↦ ?_⟩
      · simp only [Bool.or_eq_true]
        exact Or.imp hpending fun hphase ↦ (hsettled hphase).1
      · rcases getElem?_set_cases hd with ⟨-, rfl⟩ | ⟨-, hd⟩
        · obtain ⟨hphase, hpid⟩ := hsettled hdphase
          rw [hpid]
          exact h.named i c hc hphase
        · exact h.named j d hd hdphase
  | pass hlaunched hidle =>
      -- nobody is pending by the guard, and nobody is settled as the check passes
      have hnone : ∀ (j : ℕ) (d : Command), s.commands[j]? = some d →
          (d.phase.pending || d.phase.settled) = false := by
        intro j d hd
        have hpending := hguard c hc hlaunched hidle d (List.mem_of_getElem? hd)
        cases hphase : d.phase.settled with
        | true => simp [h.isRunning_of_settled hd hphase] at hidle
        | false => simp [hpending]
      refine ⟨fun j d hd ↦ h.pid_pos_put hc hd id, fun j l d e hd he hdphase hephase ↦ ?_,
        fun j d hd hdphase ↦ ?_⟩
      · rcases getElem?_set_cases hd with ⟨rfl, -⟩ | ⟨-, hd⟩
        · rcases getElem?_set_cases he with ⟨rfl, -⟩ | ⟨-, he⟩
          · rfl
          · simp [hnone l e he] at hephase
        · simp [hnone j d hd] at hdphase
      · rcases getElem?_set_cases hd with ⟨-, rfl⟩ | ⟨-, hd⟩
        · simp [Phase.settled] at hdphase
        · exact h.named j d hd hdphase
  | record _ hpending =>
      refine ⟨fun j d hd ↦ h.pid_pos_put hc hd id, fun j l d e hd he ↦
        h.exclusive_put hc (fun _ ↦ by simp [hpending]) hd he, fun j d hd hdphase ↦ ?_⟩
      rcases getElem?_set_cases hd with ⟨-, rfl⟩ | ⟨hj, hd⟩
      · simp [Host.record]
      · exact absurd (h.exclusive j i d c hd hc (by simp [hdphase]) (by simp [hpending])) hj

theorem Inv.launch {s : Host} (h : Inv s) {pid : Int32} {boot : Bool} (hpid : s.Fresh pid) :
    Inv { s with commands := s.commands ++ [⟨pid, boot, .launched⟩] } := by
  have hcases : ∀ {j : ℕ} {d : Command},
      (s.commands ++ [⟨pid, boot, .launched⟩])[j]? = some d →
        s.commands[j]? = some d ∨ d = ⟨pid, boot, .launched⟩ := by
    intro j d hd
    rw [List.getElem?_append] at hd
    grind
  refine ⟨fun j d hd ↦ ?_, fun j l d e hd he hdphase hephase ↦ ?_, fun j d hd hdphase ↦ ?_⟩
  · rcases hcases hd with hd | rfl
    · exact h.pid_pos j d hd
    · exact hpid.1
  · rcases hcases hd with hd | rfl
    · rcases hcases he with he | rfl
      · exact h.exclusive j l d e hd he hdphase hephase
      · simp [Phase.pending, Phase.settled] at hephase
    · simp [Phase.pending, Phase.settled] at hdphase
  · rcases hcases hd with hd | rfl
    · exact h.named j d hd hdphase
    · simp [Phase.settled] at hdphase

theorem Inv.step (event : Event) (s : Host) (h : Inv s) (hguard : event.Exclusive s) :
    Inv (Host.step event s) := by
  cases event with
  | launch pid boot =>
      simp only [Host.step]
      split
      · exact h.launch ‹_›
      · exact h
  | act i action =>
      simp only [Host.step]
      split
      · exact h
      · next c hc => exact h.of_effect hc (perform_effect i c s action) hguard

/-- In every interleaving in which no check passes while another command is
between its check and the pid file, there is a single daemon at all times. -/
theorem always_single (pidFile : Option Text) (others : Int32 → Bool) (events : List Event)
    (hguard : Run.Guarded Host.step Event.Exclusive events
      ⟨[], pidFile, others⟩) :
    Run.Always Host.step Single events ⟨[], pidFile, others⟩ := by
  have hinit : Inv ⟨[], pidFile, others⟩ := ⟨by simp, by simp, by simp⟩
  have hinv : Run.Always Host.step Inv events ⟨[], pidFile, others⟩ :=
    Run.always_of_guarded (Inv.step) hinit hguard
  exact hinv.imp fun s hs ↦ hs.single

def startsAs (i : ℕ) (daemon : Int32) : List Event :=
  [.act i .check, .act i (.answer true), .act i .save, .act i (.daemonize daemon),
    .act i .writePidFile, .act i .enterLoop]

theorem always_single_sample :
    Run.Always Host.step Single
      (.launch 10 false :: (startsAs 0 11 ++ [.launch 20 false, .act 1 .check]))
      ⟨[], none, fun _ ↦ false⟩ := by
  refine always_single none (fun _ ↦ false) _ ⟨trivial, ?_, trivial, trivial, trivial, trivial,
    trivial, trivial, ?_, trivial⟩
  · intro _ _ _ _
    decide +kernel
  · intro _ _ _ hidle
    exact absurd hidle (by decide +kernel)

/-- Two commands that wait for their confirmation at the same time. -/
theorem not_single_of_two_checks :
    ¬ Run.Always Host.step Single
      ([.launch 10 false, .launch 20 false, .act 1 .check] ++
        (startsAs 0 11 ++ (startsAs 1 21).tail))
      ⟨[], none, fun _ ↦ false⟩ := by
  intro h
  have hsame := h.last.unique 0 1 ⟨11, false, .looping⟩ ⟨21, false, .looping⟩
    (by decide +kernel) (by decide +kernel) rfl rfl
  exact absurd hsame (by decide)

end BetterCpu.SingleDaemon
