import BetterCpu.Library.Descriptors
import BetterCpu.Library.Run
import BetterCpu.Sysfs

/-!
# Going to the background

`DaemonControl::daemonize` as the steps of the processes that it makes.  The one
that calls it, its child and its grandchild run in any order, and the kernel
lets calls fail.  A process that has returned is back in `run_start_command`.
-/

namespace BetterCpu.Daemonize

open Descriptors

/-! ## The processes -/

/-- The call of `daemonize` that a process makes next. -/
inductive Point where
  | firstFork
  | firstExit
  | setsid
  | secondFork
  | secondExit
  | umask
  | chdir
  | openNull
  | dupStdin (nullFd : ℕ)
  | dupStdout (nullFd : ℕ)
  | dupStderr (nullFd : ℕ)
  | closeNull (nullFd : ℕ)
  | returned (result : Bool)
  | exited (status : Int32)

structure Process where
  pid : Int32
  parent : Int32
  group : Int32
  session : Int32
  workingDirectory : Text
  mask : ℕ
  descriptors : Table Text
  point : Point

/-- A process makes its next call.  `succeeds` is the answer of the kernel where it
has a choice, and `child` the pid that a fork would give. -/
structure Event where
  pid : Int32
  succeeds : Bool
  child : Int32

def devNull : Text := "/dev/null".toList

/-- The calls that the kernel may let fail: the two forks, `chdir` and `open`. -/
def Point.mayFail : Point → Bool
  | .firstFork | .secondFork | .chdir | .openNull => true
  | _ => false

namespace Process

def goTo (point : Point) (p : Process) : Process :=
  { p with point := point }

def fork (child : Int32) (point : Point) (p : Process) : Process :=
  { p with pid := child, parent := p.pid, point := point }

/-- A process after its next call, and its child if this is a fork.  `setsid`
fails for the leader of a process group and for no other process. -/
def turn (limit : ℕ) (event : Event) (p : Process) : Process × Option Process :=
  match p.point with
  | .firstFork =>
      if !event.succeeds then (p.goTo (.returned false), none)
      else (p.goTo .firstExit, some (p.fork event.child .setsid))
  | .firstExit => (p.goTo (.exited 0), none)
  | .setsid =>
      if p.group = p.pid then (p.goTo (.returned false), none)
      else ({ p with group := p.pid, session := p.pid, point := .secondFork }, none)
  | .secondFork =>
      if !event.succeeds then (p.goTo (.returned false), none)
      else (p.goTo .secondExit, some (p.fork event.child .umask))
  | .secondExit => (p.goTo (.exited 0), none)
  | .umask => ({ p with mask := 0, point := .chdir }, none)
  | .chdir =>
      if !event.succeeds then (p.goTo (.returned false), none)
      else ({ p with workingDirectory := ['/'], point := .openNull }, none)
  | .openNull =>
      match if event.succeeds then lowestFree limit p.descriptors else none with
      | none => (p.goTo (.returned false), none)
      | some nullFd =>
          ({ p with
            descriptors := openAt nullFd devNull p.descriptors
            point := .dupStdin nullFd }, none)
  | .dupStdin nullFd =>
      ({ p with
        descriptors := dup2 limit nullFd 0 p.descriptors
        point := .dupStdout nullFd }, none)
  | .dupStdout nullFd =>
      ({ p with
        descriptors := dup2 limit nullFd 1 p.descriptors
        point := .dupStderr nullFd }, none)
  | .dupStderr nullFd =>
      ({ p with
        descriptors := dup2 limit nullFd 2 p.descriptors
        point := if 2 < nullFd then .closeNull nullFd else .returned true }, none)
  | .closeNull nullFd =>
      ({ p with
        descriptors := close nullFd p.descriptors
        point := .returned true }, none)
  | .returned _ | .exited _ => (p, none)

/-- Whether the number is that of the process, of its group or of its session. -/
def uses (id : Int32) (p : Process) : Bool :=
  p.pid == id || p.group == id || p.session == id

/-- The children of a process that ends are given to the reaper. -/
def orphan (pid reaper : Int32) (p : Process) : Process :=
  if p.parent = pid then { p with parent := reaper } else p

def hasExited (p : Process) : Bool :=
  p.point matches .exited _

/-- Whether the process has neither ended nor come to `_exit`. -/
def carriesOn (p : Process) : Bool :=
  match p.point with
  | .firstExit | .secondExit | .exited _ => false
  | _ => true

end Process

/-- A fork gives a number that is in use neither for a process nor for a group or
a session. -/
def step (limit : ℕ) (reaper : Int32) (event : Event) (s : List Process) : List Process :=
  match s.find? fun p ↦ p.pid == event.pid with
  | none => s
  | some p =>
      let turned := p.turn limit event
      let s' := s.map fun q ↦ if q.pid = event.pid then turned.1 else q
      match turned.2 with
      | none => if turned.1.hasExited then s'.map (Process.orphan event.pid reaper) else s'
      | some child => if s.any (Process.uses child.pid) then s else s' ++ [child]

/-- The event is a call that fails. -/
def Event.Fails (event : Event) (s : List Process) : Prop :=
  event.succeeds = false ∧ ∃ q ∈ s, q.pid = event.pid ∧ q.point.mayFail = true

/-! ## The family -/

/-- A process that is only left to call `_exit`, or has done so. -/
structure Leaving (pid : Int32) (exit : Point) (q : Process) : Prop where
  pid_eq : q.pid = pid
  point_eq : q.point = exit ∨ q.point = .exited 0

/-- What holds of the child up to its own fork. -/
structure Child (p c : Process) (calm : Prop) : Prop where
  pid_ne : c.pid ≠ p.pid
  group_ne : c.pid ≠ p.group
  session_ne : c.pid ≠ p.session
  descriptors_eq : c.descriptors = p.descriptors
  stands :
    (c.point = .setsid ∧ c.group = p.group) ∨
      (c.point = .secondFork ∧ c.group = c.pid ∧ c.session = c.pid) ∨
        (c.point = .returned false ∧ ¬ calm)

/-- The first `n` descriptors have been redirected, and the rest is as it was. -/
def Redirecting (limit : ℕ) (p g : Process) (nullFd n : ℕ) : Prop :=
  g.mask = 0 ∧ g.workingDirectory = ['/'] ∧ lowestFree limit p.descriptors = some nullFd ∧
    g.descriptors = openAt nullFd devNull (overlaid limit devNull p.descriptors n)

/-- What `daemonize` has achieved for the grandchild where this stands. -/
def Achieved (limit : ℕ) (p g : Process) (calm : Prop) : Prop :=
  match g.point with
  | .umask => g.descriptors = p.descriptors
  | .chdir => g.mask = 0 ∧ g.descriptors = p.descriptors
  | .openNull => g.mask = 0 ∧ g.workingDirectory = ['/'] ∧ g.descriptors = p.descriptors
  | .dupStdin nullFd => Redirecting limit p g nullFd 0
  | .dupStdout nullFd => Redirecting limit p g nullFd 1
  | .dupStderr nullFd => Redirecting limit p g nullFd 2
  | .closeNull nullFd => Redirecting limit p g nullFd 3 ∧ 2 < nullFd
  | .returned true =>
      g.mask = 0 ∧ g.workingDirectory = ['/'] ∧
        g.descriptors = overlaid limit devNull p.descriptors 3
  | .returned false => g.descriptors = p.descriptors ∧ ¬ calm
  | _ => False

/-- What holds of the grandchild besides. -/
structure Grandchild (limit : ℕ) (reaper : Int32) (p c g : Process) (calm : Prop) : Prop where
  pid_ne : g.pid ≠ p.pid
  pid_ne_child : g.pid ≠ c.pid
  group_eq : g.group = c.pid
  session_eq : g.session = c.pid
  stands :
    (c.point = .secondExit ∧ g.parent = c.pid) ∨ (c.point = .exited 0 ∧ g.parent = reaper)
  achieved : Achieved limit p g calm

/-- The processes that a call of `daemonize` by `p` has come to, and the one of
them that carries on. -/
inductive Family (limit : ℕ) (reaper : Int32) (p : Process) (calm : Prop) :
    List Process → Process → Prop
  | alone {point : Point}
      (h : point = .firstFork ∨ point = .returned false ∧ ¬ calm) :
      Family limit reaper p calm [p.goTo point] (p.goTo point)
  | forked {q c : Process} (hq : Leaving p.pid .firstExit q) (hc : Child p c calm) :
      Family limit reaper p calm [q, c] c
  | detached {q c g : Process} (hq : Leaving p.pid .firstExit q)
      (hpid : c.pid ≠ p.pid) (hsession : c.pid ≠ p.session)
      (hg : Grandchild limit reaper p c g calm) :
      Family limit reaper p calm [q, c, g] g

section Step

variable {limit : ℕ} {reaper : Int32} {p q c g d : Process} {calm : Prop} {event : Event}
variable {s : List Process}

/-! ## The turns -/

@[simp] theorem Process.goTo_pid (p : Process) (point : Point) : (p.goTo point).pid = p.pid := rfl

@[simp] theorem Process.goTo_point (p : Process) (point : Point) :
    (p.goTo point).point = point := rfl

@[simp] theorem Process.orphan_pid (p : Process) (pid : Int32) :
    (p.orphan pid reaper).pid = p.pid := by
  unfold Process.orphan
  split <;> rfl

@[simp] theorem Process.orphan_point (p : Process) (pid : Int32) :
    (p.orphan pid reaper).point = p.point := by
  unfold Process.orphan
  split <;> rfl

/-- A process that is leaving ends, and forks no more. -/
theorem Leaving.turn {pid : Int32} {exit : Point} (hexit : exit = .firstExit ∨ exit = .secondExit)
    (h : Leaving pid exit q) : q.turn limit event = (q.goTo (.exited 0), none) := by
  obtain ⟨pid, parent, group, session, workingDirectory, mask, descriptors, point⟩ := q
  obtain rfl | rfl := h.point_eq
  · obtain rfl | rfl := hexit <;> rfl
  · rfl

/-- The turns of the grandchild, one case for each of its calls. -/
theorem Achieved.turn (h : Achieved limit p g calm)
    (hcalm : calm → g.point.mayFail = true → event.succeeds = true)
    (hfree : calm → (lowestFree limit p.descriptors).isSome = true) :
    (g.turn limit event).2 = none ∧ Achieved limit p (g.turn limit event).1 calm ∧
      ∃ mask workingDirectory descriptors point, (g.turn limit event).1 =
        { g with
          mask := mask
          workingDirectory := workingDirectory
          descriptors := descriptors
          point := point } := by
  obtain ⟨pid, parent, group, session, workingDirectory, mask, descriptors, point⟩ := g
  cases point with
  | umask => exact ⟨rfl, ⟨rfl, h⟩, _, _, _, _, rfl⟩
  | chdir =>
      obtain ⟨hmask, hdescriptors⟩ := h
      cases hsucceeds : event.succeeds with
      | false =>
          simp only [Process.turn, hsucceeds]
          exact ⟨rfl, ⟨hdescriptors, fun hc ↦ by simp [hcalm hc rfl] at hsucceeds⟩, _, _, _, _,
            rfl⟩
      | true =>
          simp only [Process.turn, hsucceeds]
          exact ⟨rfl, ⟨hmask, rfl, hdescriptors⟩, _, _, _, _, rfl⟩
  | openNull =>
      obtain ⟨hmask, hdirectory, hdescriptors⟩ := h
      simp only at hmask hdirectory hdescriptors
      subst hdescriptors
      cases hopen : if event.succeeds then lowestFree limit p.descriptors else none with
      | none =>
          simp only [Process.turn, hopen]
          refine ⟨trivial, ⟨rfl, fun hc ↦ ?_⟩, _, _, _, _, rfl⟩
          rw [if_pos (hcalm hc rfl)] at hopen
          simpa [hopen] using hfree hc
      | some nullFd =>
          simp only [Process.turn, hopen]
          refine ⟨trivial, ⟨hmask, hdirectory, ?_, ?_⟩, _, _, _, _, rfl⟩
          · exact (Option.ite_none_right_eq_some.mp hopen).2
          · rw [overlaid_zero]
  | dupStdin nullFd =>
      obtain ⟨hmask, hdirectory, hfd, hdescriptors⟩ := h
      refine ⟨rfl, ⟨hmask, hdirectory, hfd, ?_⟩, _, _, _, _, rfl⟩
      exact (congrArg (dup2 limit nullFd 0) hdescriptors).trans (dup2_openAt_overlaid 0)
  | dupStdout nullFd =>
      obtain ⟨hmask, hdirectory, hfd, hdescriptors⟩ := h
      refine ⟨rfl, ⟨hmask, hdirectory, hfd, ?_⟩, _, _, _, _, rfl⟩
      exact (congrArg (dup2 limit nullFd 1) hdescriptors).trans (dup2_openAt_overlaid 1)
  | dupStderr nullFd =>
      obtain ⟨hmask, hdirectory, hfd, hdescriptors⟩ := h
      have hlast : dup2 limit nullFd 2 descriptors =
          openAt nullFd devNull (overlaid limit devNull p.descriptors 3) :=
        (congrArg (dup2 limit nullFd 2) hdescriptors).trans (dup2_openAt_overlaid 2)
      by_cases hbehind : 2 < nullFd
      · simp only [Process.turn, hbehind, if_true]
        exact ⟨trivial, ⟨⟨hmask, hdirectory, hfd, hlast⟩, hbehind⟩, _, _, _, _, rfl⟩
      · simp only [Process.turn, hbehind, if_false]
        refine ⟨trivial, ⟨hmask, hdirectory, hlast.trans ?_⟩, _, _, _, _, rfl⟩
        exact openAt_overlaid_of_lt (lowestFree_eq_some hfd).2 (by omega)
  | closeNull nullFd =>
      obtain ⟨⟨hmask, hdirectory, hfd, hdescriptors⟩, hbehind⟩ := h
      refine ⟨rfl, ⟨hmask, hdirectory, ?_⟩, _, _, _, _, rfl⟩
      exact (congrArg (close nullFd) hdescriptors).trans
        (close_openAt_overlaid (lowestFree_eq_some hfd).1 hbehind)
  | returned result => exact ⟨rfl, h, _, _, _, _, rfl⟩
  | _ => cases h

theorem Grandchild.turn (h : Grandchild limit reaper p c g calm)
    (hcalm : calm → g.point.mayFail = true → event.succeeds = true)
    (hfree : calm → (lowestFree limit p.descriptors).isSome = true) :
    (g.turn limit event).2 = none ∧ Grandchild limit reaper p c (g.turn limit event).1 calm := by
  obtain ⟨hnone, hachieved, mask, workingDirectory, descriptors, point, heq⟩ :=
    h.achieved.turn hcalm hfree
  refine ⟨hnone, ?_⟩
  rw [heq] at hachieved ⊢
  exact ⟨h.pid_ne, h.pid_ne_child, h.group_eq, h.session_eq, h.stands, hachieved⟩

theorem Grandchild.hasExited (h : Grandchild limit reaper p c g calm) : g.hasExited = false := by
  have hachieved := h.achieved
  unfold Process.hasExited
  unfold Achieved at hachieved
  split <;> simp_all

/-! ## The ends -/

theorem Leaving.orphan {pid : Int32} {exit : Point} (h : Leaving pid exit q) (id : Int32) :
    Leaving pid exit (q.orphan id reaper) :=
  ⟨(q.orphan_pid id).trans h.pid_eq, by rw [q.orphan_point]; exact h.point_eq⟩

theorem Leaving.goTo_exited {pid : Int32} {exit : Point} (h : Leaving pid exit q) :
    Leaving pid exit (q.goTo (.exited 0)) :=
  ⟨h.pid_eq, Or.inr rfl⟩

theorem Child.orphan (h : Child p c calm) (pid : Int32) : Child p (c.orphan pid reaper) calm := by
  unfold Process.orphan
  split
  · exact ⟨h.pid_ne, h.group_ne, h.session_ne, h.descriptors_eq, h.stands⟩
  · exact h

theorem Achieved.orphan (h : Achieved limit p g calm) (pid : Int32) :
    Achieved limit p (g.orphan pid reaper) calm := by
  unfold Process.orphan
  split <;> exact h

theorem Process.orphan_group (p : Process) (pid : Int32) :
    (p.orphan pid reaper).group = p.group := by
  unfold Process.orphan
  split <;> rfl

theorem Process.orphan_session (p : Process) (pid : Int32) :
    (p.orphan pid reaper).session = p.session := by
  unfold Process.orphan
  split <;> rfl

theorem Process.orphan_parent (p : Process) (pid : Int32) :
    (p.orphan pid reaper).parent = if p.parent = pid then reaper else p.parent := by
  unfold Process.orphan
  split <;> rfl

/-- The end of the first process does not make an orphan of the grandchild. -/
theorem Grandchild.orphan (h : Grandchild limit reaper p c g calm) {pid : Int32}
    (hpid : c.pid ≠ pid) :
    Grandchild limit reaper p (c.orphan pid reaper) (g.orphan pid reaper) calm := by
  refine ⟨?_, ?_, ?_, ?_, ?_, h.achieved.orphan pid⟩
  · simpa using h.pid_ne
  · simpa using h.pid_ne_child
  · simpa [Process.orphan_group] using h.group_eq
  · simpa [Process.orphan_session] using h.session_eq
  · rw [Process.orphan_point, Process.orphan_pid, Process.orphan_parent]
    rcases h.stands with ⟨hpoint, hparent⟩ | ⟨hpoint, hparent⟩
    · exact Or.inl ⟨hpoint, by rw [hparent, if_neg hpid]⟩
    · exact Or.inr ⟨hpoint, by rw [hparent, ite_self]⟩

/-- The end of the child gives the grandchild to the reaper. -/
theorem Grandchild.orphan_child (h : Grandchild limit reaper p c g calm) :
    Grandchild limit reaper p ((c.goTo (.exited 0)).orphan c.pid reaper)
      (g.orphan c.pid reaper) calm := by
  refine ⟨?_, ?_, ?_, ?_, ?_, h.achieved.orphan c.pid⟩
  · simpa using h.pid_ne
  · simpa using h.pid_ne_child
  · simpa [Process.orphan_group] using h.group_eq
  · simpa [Process.orphan_session] using h.session_eq
  · rw [Process.orphan_point, Process.orphan_parent]
    rcases h.stands with ⟨-, hparent⟩ | ⟨-, hparent⟩
    · exact Or.inr ⟨rfl, if_pos hparent⟩
    · exact Or.inr ⟨rfl, by rw [hparent, ite_self]⟩

/-! ## The steps -/

/-- A step of a process that neither ends nor forks concerns no other process. -/
theorem step_of_stays (hfind : s.find? (fun p ↦ p.pid == event.pid) = some d)
    (hnone : (d.turn limit event).2 = none)
    (hstays : (d.turn limit event).1.hasExited = false) :
    step limit reaper event s =
      s.map fun q ↦ if q.pid = event.pid then (d.turn limit event).1 else q := by
  simp [step, hfind, hnone, hstays]

/-- A step of a process that is leaving ends it, and gives its children away. -/
theorem step_of_leaving (hfind : s.find? (fun p ↦ p.pid == event.pid) = some d)
    (hturn : d.turn limit event = (d.goTo (.exited 0), none)) :
    step limit reaper event s = s.map fun q ↦
      Process.orphan event.pid reaper (if q.pid = event.pid then d.goTo (.exited 0) else q) := by
  simp [step, hfind, hturn, Process.hasExited, Function.comp_def]

theorem step_of_forks {exit start : Point}
    (hfind : s.find? (fun p ↦ p.pid == event.pid) = some d)
    (hturn : d.turn limit event = (d.goTo exit, some (d.fork event.child start))) :
    step limit reaper event s =
      if s.any (Process.uses event.child) then s
      else (s.map fun q ↦ if q.pid = event.pid then d.goTo exit else q) ++
        [d.fork event.child start] := by
  simp [step, hfind, hturn, Process.fork]

theorem step_of_not_mem (h : ∀ q ∈ s, q.pid ≠ event.pid) : step limit reaper event s = s := by
  have hfind : s.find? (fun p ↦ p.pid == event.pid) = none := by
    simpa [List.find?_eq_none] using h
  rw [step, hfind]

theorem Event.succeeds_of_not_fails (h : ¬ event.Fails s) (hq : q ∈ s) (hpid : q.pid = event.pid)
    (hmay : q.point.mayFail = true) : event.succeeds = true := by
  by_contra hnot
  exact h ⟨Bool.eq_false_iff.mpr hnot, q, hq, hpid, hmay⟩

theorem Family.step_alone {point : Point}
    (h : point = .firstFork ∨ point = .returned false ∧ ¬ calm)
    (hcalm : calm → ¬ event.Fails [p.goTo point]) :
    ∃ d', Family limit reaper p calm (step limit reaper event [p.goTo point]) d' := by
  by_cases hp : p.pid = event.pid
  · have hfind : [p.goTo point].find? (fun p ↦ p.pid == event.pid) = some (p.goTo point) := by
      simp [hp]
    have hfailed (hturn : (p.goTo point).turn limit event = (p.goTo (.returned false), none))
        (hnot : ¬ calm) :
        ∃ d', Family limit reaper p calm (step limit reaper event [p.goTo point]) d' := by
      rw [step_of_stays hfind (by rw [hturn]) (by rw [hturn]; rfl), hturn]
      refine ⟨p.goTo (.returned false), ?_⟩
      simpa [hp] using Family.alone (Or.inr ⟨rfl, hnot⟩)
    rcases h with rfl | ⟨rfl, hnot⟩
    · cases hsucceeds : event.succeeds with
      | false =>
          apply hfailed
          · simp only [Process.turn, hsucceeds, Process.goTo_point]
            rfl
          · intro hc
            have hsucceeded := Event.succeeds_of_not_fails (hcalm hc) List.mem_cons_self hp rfl
            simp [hsucceeded] at hsucceeds
      | true =>
          have hturn : (p.goTo .firstFork).turn limit event =
              ((p.goTo .firstFork).goTo .firstExit,
                some ((p.goTo .firstFork).fork event.child .setsid)) := by
            simp [Process.turn, hsucceeds]
          rw [step_of_forks hfind hturn]
          by_cases hused : [p.goTo .firstFork].any (Process.uses event.child) = true
          · exact ⟨_, by rw [if_pos hused]; exact .alone (Or.inl rfl)⟩
          · have hfresh : (p.pid ≠ event.child ∧ p.group ≠ event.child) ∧
                p.session ≠ event.child := by
              simpa [Process.uses, Process.goTo] using hused
            obtain ⟨⟨hpid, hgroup⟩, hsession⟩ := hfresh
            refine ⟨p.fork event.child .setsid, ?_⟩
            rw [if_neg hused]
            simp only [List.map_cons, List.map_nil, Process.goTo_pid, hp, if_true,
              List.singleton_append]
            exact .forked ⟨rfl, Or.inl rfl⟩ ⟨hpid.symm, hgroup.symm, hsession.symm, rfl,
              Or.inl ⟨rfl, rfl⟩⟩
    · exact hfailed rfl hnot
  · rw [step_of_not_mem (by simpa using hp)]
    exact ⟨_, .alone h⟩

theorem Child.hasExited_eq (hc : Child p c calm) : c.hasExited = false := by
  obtain ⟨h, -⟩ | ⟨h, -⟩ | ⟨h, -⟩ := hc.stands <;> rw [Process.hasExited, h]

variable (limit) in
/-- In its turn, the child stays one, or it leads its session and forks. -/
theorem Child.turn (hc : Child p c calm)
    (hcalm : calm → c.point.mayFail = true → event.succeeds = true) :
    (∃ c', c.turn limit event = (c', none) ∧ Child p c' calm) ∨
      c.turn limit event = (c.goTo .secondExit, some (c.fork event.child .umask)) ∧
        c.group = c.pid ∧ c.session = c.pid := by
  rcases hc.stands with ⟨hpoint, hgroup⟩ | ⟨hpoint, hleads⟩ | ⟨hpoint, hnot⟩
  · have hfollows : c.group ≠ c.pid := by
      rw [hgroup]
      exact hc.group_ne.symm
    have hturn : c.turn limit event =
        ({ c with group := c.pid, session := c.pid, point := .secondFork }, none) := by
      simp [Process.turn, hpoint, hfollows]
    exact Or.inl ⟨_, hturn, hc.pid_ne, hc.group_ne, hc.session_ne, hc.descriptors_eq,
      Or.inr (Or.inl ⟨rfl, rfl, rfl⟩)⟩
  · cases hsucceeds : event.succeeds with
    | false =>
        have hturn : c.turn limit event = (c.goTo (.returned false), none) := by
          simp [Process.turn, hpoint, hsucceeds]
        exact Or.inl ⟨_, hturn, hc.pid_ne, hc.group_ne, hc.session_ne, hc.descriptors_eq,
          Or.inr (Or.inr ⟨rfl, fun h ↦ by simp [hcalm h (hpoint ▸ rfl)] at hsucceeds⟩)⟩
    | true => exact Or.inr ⟨by simp [Process.turn, hpoint, hsucceeds], hleads⟩
  · have hturn : c.turn limit event = (c, none) := by
      simp [Process.turn, hpoint]
    exact Or.inl ⟨c, hturn, hc⟩

theorem Family.step_forked (hq : Leaving p.pid .firstExit q) (hc : Child p c calm)
    (hcalm : calm → ¬ event.Fails [q, c]) :
    ∃ d', Family limit reaper p calm (step limit reaper event [q, c]) d' := by
  have hne : c.pid ≠ q.pid := by
    rw [hq.pid_eq]
    exact hc.pid_ne
  by_cases hfirst : q.pid = event.pid
  · have hfind : [q, c].find? (fun p ↦ p.pid == event.pid) = some q := by simp [hfirst]
    rw [step_of_leaving hfind (hq.turn (Or.inl rfl))]
    refine ⟨c.orphan event.pid reaper, ?_⟩
    simp only [List.map_cons, List.map_nil, hfirst, if_true, if_neg (hfirst ▸ hne)]
    exact .forked (hq.goTo_exited.orphan _) (hc.orphan _)
  by_cases hsecond : c.pid = event.pid
  · have hfind : [q, c].find? (fun p ↦ p.pid == event.pid) = some c := by
      simp [hfirst, hsecond]
    have hcall : calm → c.point.mayFail = true → event.succeeds = true := fun h ↦
      Event.succeeds_of_not_fails (hcalm h) (by simp) hsecond
    rcases hc.turn limit hcall with ⟨c', hturn, hc'⟩ | ⟨hturn, hleads⟩
    · rw [step_of_stays hfind (by rw [hturn]) (by rw [hturn, hc'.hasExited_eq]), hturn]
      refine ⟨c', ?_⟩
      simp only [List.map_cons, List.map_nil, hfirst, hsecond, if_true, if_false]
      exact .forked hq hc'
    · rw [step_of_forks hfind hturn]
      by_cases hused : [q, c].any (Process.uses event.child) = true
      · exact ⟨c, by rw [if_pos hused]; exact .forked hq hc⟩
      · have hfresh : q.pid ≠ event.child ∧ c.pid ≠ event.child := by
          constructor
          · exact fun h ↦ hused (by simp [Process.uses, h])
          · exact fun h ↦ hused (by simp [Process.uses, h])
        refine ⟨c.fork event.child .umask, ?_⟩
        rw [if_neg hused]
        simp only [List.map_cons, List.map_nil, hfirst, hsecond, if_true, if_false,
          List.cons_append, List.nil_append]
        refine .detached hq hc.pid_ne hc.session_ne ⟨?_, hfresh.2.symm, hleads.1, hleads.2,
          Or.inl ⟨rfl, rfl⟩, hc.descriptors_eq⟩
        rw [← hq.pid_eq]
        exact hfresh.1.symm
  · rw [step_of_not_mem (by simpa using ⟨hfirst, hsecond⟩)]
    exact ⟨c, .forked hq hc⟩

theorem Family.step_detached (hq : Leaving p.pid .firstExit q) (hpid : c.pid ≠ p.pid)
    (hsession : c.pid ≠ p.session) (hg : Grandchild limit reaper p c g calm)
    (hcalm : calm → ¬ event.Fails [q, c, g])
    (hfree : calm → (lowestFree limit p.descriptors).isSome = true) :
    ∃ d', Family limit reaper p calm (step limit reaper event [q, c, g]) d' := by
  have hc : Leaving c.pid .secondExit c :=
    ⟨rfl, hg.stands.imp And.left And.left⟩
  have hchild : c.pid ≠ q.pid := by
    rw [hq.pid_eq]
    exact hpid
  have hgrandchild : g.pid ≠ q.pid := by
    rw [hq.pid_eq]
    exact hg.pid_ne
  by_cases hfirst : q.pid = event.pid
  · have hfind : [q, c, g].find? (fun p ↦ p.pid == event.pid) = some q := by simp [hfirst]
    rw [step_of_leaving hfind (hq.turn (Or.inl rfl))]
    refine ⟨g.orphan event.pid reaper, ?_⟩
    simp only [List.map_cons, List.map_nil, hfirst, if_true, if_neg (hfirst ▸ hchild),
      if_neg (hfirst ▸ hgrandchild)]
    refine .detached (hq.goTo_exited.orphan _) ?_ ?_ (hg.orphan (hfirst ▸ hchild))
    · rwa [Process.orphan_pid]
    · rwa [Process.orphan_pid]
  · by_cases hsecond : c.pid = event.pid
    · have hfind : [q, c, g].find? (fun p ↦ p.pid == event.pid) = some c := by
        simp [hfirst, hsecond]
      rw [step_of_leaving hfind (hc.turn (Or.inr rfl)), ← hsecond]
      refine ⟨g.orphan c.pid reaper, ?_⟩
      simp only [List.map_cons, List.map_nil, hchild.symm, hg.pid_ne_child, if_true, if_false]
      refine .detached (hq.orphan _) ?_ ?_ hg.orphan_child
      · rwa [Process.orphan_pid]
      · rwa [Process.orphan_pid]
    · by_cases hthird : g.pid = event.pid
      · have hfind : [q, c, g].find? (fun p ↦ p.pid == event.pid) = some g := by
          simp [hfirst, hsecond, hthird]
        have hcall : calm → g.point.mayFail = true → event.succeeds = true := fun h ↦
          Event.succeeds_of_not_fails (hcalm h) (by simp) hthird
        obtain ⟨hnone, hturned⟩ := hg.turn hcall hfree
        rw [step_of_stays hfind hnone hturned.hasExited]
        refine ⟨(g.turn limit event).1, ?_⟩
        simp only [List.map_cons, List.map_nil, hfirst, hsecond, hthird, if_true, if_false]
        exact .detached hq hpid hsession hturned
      · rw [step_of_not_mem (by simpa using ⟨hfirst, hsecond, hthird⟩)]
        exact ⟨g, .detached hq hpid hsession hg⟩

/-- A step of any process keeps the family. -/
theorem Family.step (h : Family limit reaper p calm s d) (hcalm : calm → ¬ event.Fails s)
    (hfree : calm → (lowestFree limit p.descriptors).isSome = true) :
    ∃ d', Family limit reaper p calm (step limit reaper event s) d' := by
  cases h with
  | alone h => exact step_alone h hcalm
  | forked hq hc => exact step_forked hq hc hcalm
  | detached hq hpid hsession hg => exact step_detached hq hpid hsession hg hcalm hfree

end Step

/-! ## Runs -/

/-- What `daemonize` promises its caller; of the standard descriptors, those that
the limit allows for, which are all three if it is at least 3. -/
structure Detached (limit : ℕ) (p d : Process) : Prop where
  not_group_leader : d.group ≠ d.pid
  not_session_leader : d.session ≠ d.pid
  session_ne : d.session ≠ p.session
  workingDirectory_eq : d.workingDirectory = ['/']
  mask_eq : d.mask = 0
  standard : ∀ fd < 3, fd < limit → d.descriptors fd = some devNull
  others : ∀ fd, 3 ≤ fd → d.descriptors fd = p.descriptors fd

section Runs

variable {limit : ℕ} {reaper : Int32} {p d : Process} {calm : Prop} {s : List Process}

theorem Leaving.carriesOn {pid : Int32} {exit : Point} {q : Process}
    (hexit : exit = .firstExit ∨ exit = .secondExit) (h : Leaving pid exit q) :
    q.carriesOn = false := by
  obtain h | h := h.point_eq
  · obtain rfl | rfl := hexit <;> rw [Process.carriesOn, h]
  · rw [Process.carriesOn, h]

theorem Child.carriesOn {c : Process} (h : Child p c calm) : c.carriesOn = true := by
  obtain ⟨h, -⟩ | ⟨h, -⟩ | ⟨h, -⟩ := h.stands <;> rw [Process.carriesOn, h]

theorem Grandchild.carriesOn {c g : Process} (h : Grandchild limit reaper p c g calm) :
    g.carriesOn = true := by
  have hachieved := h.achieved
  unfold Process.carriesOn
  unfold Achieved at hachieved
  split <;> simp_all

theorem Family.filter_carriesOn (h : Family limit reaper p calm s d) :
    s.filter Process.carriesOn = [d] := by
  cases h with
  | alone h => obtain rfl | ⟨rfl, -⟩ := h <;> rfl
  | forked hq hc => simp [hq.carriesOn (Or.inl rfl), hc.carriesOn]
  | @detached q c g hq hpid hsession hg =>
      have hc : Leaving c.pid .secondExit c := ⟨rfl, hg.stands.imp And.left And.left⟩
      simp [hq.carriesOn (Or.inl rfl), hc.carriesOn (Or.inr rfl), hg.carriesOn]

theorem Family.detached_of_returned (h : Family limit reaper p calm s d)
    (hreturned : d.point = .returned true) : Detached limit p d := by
  cases h with
  | alone h => obtain rfl | ⟨rfl, -⟩ := h <;> cases hreturned
  | forked hq hc =>
      have hstands := hc.stands
      simp [hreturned] at hstands
  | @detached q c g hq hpid hsession hg =>
      have hachieved := hg.achieved
      rw [Achieved, hreturned] at hachieved
      obtain ⟨hmask, hdirectory, hdescriptors⟩ := hachieved
      refine ⟨?_, ?_, ?_, hdirectory, hmask, fun fd hfd hlimit ↦ ?_, fun fd hfd ↦ ?_⟩
      · rw [hg.group_eq]
        exact hg.pid_ne_child.symm
      · rw [hg.session_eq]
        exact hg.pid_ne_child.symm
      · rwa [hg.session_eq]
      · rw [hdescriptors, overlaid, if_pos ⟨hfd, hlimit⟩]
      · rw [hdescriptors, overlaid, if_neg (by omega)]

theorem Family.parent_of_returned (h : Family limit reaper p calm s d)
    (hreturned : d.point = .returned true)
    (hended : ∀ q ∈ s, q.carriesOn = false → q.hasExited = true) : d.parent = reaper := by
  cases h with
  | alone h => obtain rfl | ⟨rfl, -⟩ := h <;> cases hreturned
  | forked hq hc =>
      have hstands := hc.stands
      simp [hreturned] at hstands
  | @detached q c g hq hpid hsession hg =>
      have hc : Leaving c.pid .secondExit c := ⟨rfl, hg.stands.imp And.left And.left⟩
      have hexited := hended c (by simp) (hc.carriesOn (Or.inr rfl))
      rcases hg.stands with ⟨hpoint, -⟩ | ⟨-, hparent⟩
      · rw [Process.hasExited, hpoint] at hexited
        cases hexited
      · exact hparent

/-- A failure leaves the descriptors as they were, and some call has failed. -/
theorem Family.of_returned_false (h : Family limit reaper p calm s d)
    (hreturned : d.point = .returned false) : d.descriptors = p.descriptors ∧ ¬ calm := by
  cases h with
  | alone h =>
      obtain rfl | ⟨rfl, hnot⟩ := h
      · cases hreturned
      · exact ⟨rfl, hnot⟩
  | forked hq hc =>
      have hstands := hc.stands
      simp only [hreturned, reduceCtorEq, false_and, false_or, true_and] at hstands
      exact ⟨hc.descriptors_eq, hstands⟩
  | detached hq hpid hsession hg =>
      have hachieved := hg.achieved
      rw [Achieved, hreturned] at hachieved
      exact hachieved

theorem Family.caller (h : Family limit reaper p calm s d) :
    (d.pid = p.pid ∧ d.point ≠ .returned true) ∨ ∃ q ∈ s, Leaving p.pid .firstExit q := by
  cases h with
  | alone h =>
      refine Or.inl ⟨rfl, ?_⟩
      obtain rfl | ⟨rfl, -⟩ := h <;> simp
  | forked hq hc => exact Or.inr ⟨_, List.mem_cons_self, hq⟩
  | detached hq hpid hsession hg => exact Or.inr ⟨_, List.mem_cons_self, hq⟩

theorem Family.exec {events : List Event} (h : Family limit reaper p calm s d)
    (hcalm : calm → Run.Guarded (Daemonize.step limit reaper)
      (fun event s ↦ ¬ event.Fails s) events s)
    (hfree : calm → (lowestFree limit p.descriptors).isSome = true) :
    ∃ d', Family limit reaper p calm (Run.exec (Daemonize.step limit reaper) events s) d' := by
  induction events generalizing s d with
  | nil => exact ⟨d, h⟩
  | cons event events ih =>
      obtain ⟨d', h'⟩ := h.step (fun hc ↦ (hcalm hc).1) hfree
      exact ih h' fun hc ↦ (hcalm hc).2

end Runs

/-- What a run of the processes that `p` has made comes to, if `d` is the one that
carries on. -/
structure Outcome (limit : ℕ) (reaper : Int32) (p : Process) (events : List Event)
    (s : List Process) (d : Process) : Prop where
  carriesOn : s.filter Process.carriesOn = [d]
  detached : d.point = .returned true → Detached limit p d
  reaped : d.point = .returned true →
    (∀ q ∈ s, q.carriesOn = false → q.hasExited = true) → d.parent = reaper
  failed : d.point = .returned false → d.descriptors = p.descriptors ∧
    ((∃ front event back, events = front ++ event :: back ∧
        event.Fails (Run.exec (step limit reaper) front [p.goTo .firstFork])) ∨
      lowestFree limit p.descriptors = none)
  caller : (d.pid = p.pid ∧ d.point ≠ .returned true) ∨ ∃ q ∈ s, Leaving p.pid .firstExit q

/-- In whichever order the processes run, and whichever calls fail, one of them
carries on and every other one is left to `_exit`.  If it returns true, it leads
neither its group nor its new session, its standard descriptors refer to the null
device and all others to what they did; once the other processes have ended, its
parent is the reaper.  If it returns false, its descriptors have not changed, and
a fork, `chdir` or `open` has failed, or there was no descriptor left.  As soon as
there is a child, the process that the shell waits for ends with zero, whatever
becomes of the daemon. -/
theorem daemonize_run (limit : ℕ) (reaper : Int32) (p : Process) (events : List Event) :
    ∃ d, Outcome limit reaper p events
      (Run.exec (step limit reaper) events [p.goTo .firstFork]) d := by
  let calm : Prop := Run.Guarded (step limit reaper) (fun event s ↦ ¬ event.Fails s) events
      [p.goTo .firstFork] ∧ (lowestFree limit p.descriptors).isSome = true
  have hfirst : Family limit reaper p calm [p.goTo .firstFork] (p.goTo .firstFork) :=
    .alone (Or.inl rfl)
  obtain ⟨d, h⟩ := hfirst.exec And.left And.right
  refine ⟨d, h.filter_carriesOn, h.detached_of_returned, h.parent_of_returned, fun hfalse ↦ ?_,
    h.caller⟩
  obtain ⟨hdescriptors, hnot⟩ := h.of_returned_false hfalse
  refine ⟨hdescriptors, ?_⟩
  by_cases hfree : (lowestFree limit p.descriptors).isSome = true
  · obtain ⟨front, event, back, hevents, hfails⟩ :=
      Run.exists_of_not_guarded fun hguarded ↦ hnot ⟨hguarded, hfree⟩
    exact Or.inl ⟨front, event, back, hevents, not_not.mp hfails⟩
  · exact Or.inr (by simpa using hfree)

end BetterCpu.Daemonize
