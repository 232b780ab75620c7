import BetterCpu.Knobs
import BetterCpu.PolicyEngine.Actions

/-!
# The dirty page ratio

Rising pressure takes five off a ratio above five, and sets any other to five.
The old ratio is compared with the floor, not the new one, so a ratio between
six and nine falls below five, and the next time a ratio below five is raised.
-/

namespace BetterCpu

open Text

def Session.dirtyRatio (s : Session) : Int32 :=
  IoStorage.readDirtyRatio s.world.files

/-- The machine between the two writes of `relieveRisingPressure`. -/
def Session.pressedWorld (k : Kernel) (s : Session) : World :=
  (MemGuard.setVfsCachePressure k (MemGuard.readVfsCachePressure s.world.files + 20) s.world).2

/-- The action sets the ratio, and the kernel accepts. -/
def Action.SetsDirtyRatio (k : Kernel) : Action → Session → Prop
  | relieveMemory pressure _, s => MemGuard.classify pressure = .rising ∧
      (s.pressedWorld k).answer k .dirtyRatio
        (decimalInt (Session.relievedDirtyRatio (s.pressedWorld k).files).toInt) = .accepted
  | _, _ => False

/-- The ratio is set only if it is five, or ten at least. -/
def Action.KeepsFloor (k : Kernel) (action : Action) (s : Session) : Prop :=
  action.SetsDirtyRatio k s → s.dirtyRatio = 5 ∨ 10 ≤ s.dirtyRatio

/-! ## One action -/

theorem readDirtyRatio_congr {files files' : Sysfs} (h : files' .dirtyRatio = files .dirtyRatio) :
    IoStorage.readDirtyRatio files' = IoStorage.readDirtyRatio files := by
  simp [IoStorage.readDirtyRatio, h]

theorem readDirtyRatio_pressedWorld (k : Kernel) (s : Session) :
    IoStorage.readDirtyRatio (s.pressedWorld k).files = s.dirtyRatio :=
  readDirtyRatio_congr (World.writeValue_files_of_ne k _ s.world (by simp))

theorem readDirtyRatio_setDirtyRatio (k : Kernel) (ratio : Int32) (w : World) :
    IoStorage.readDirtyRatio (IoStorage.setDirtyRatio k ratio w).2.files =
      if w.answer k .dirtyRatio (decimalInt ratio.toInt) = .accepted then ratio
      else IoStorage.readDirtyRatio w.files :=
  readInt_writeValue k (fun _ ↦ rfl) 0 ratio w

theorem dirtyRatio_relieveRisingPressure (k : Kernel) (s : Session) :
    (s.relieveRisingPressure k).dirtyRatio = IoStorage.readDirtyRatio
      (IoStorage.setDirtyRatio k (Session.relievedDirtyRatio (s.pressedWorld k).files)
        (s.pressedWorld k)).2.files := rfl

theorem run_relieveMemory {pressure : MemoryPressure}
    (hrising : MemGuard.classify pressure = .rising) (topConsumers : List ProcessMemoryUsage)
    (k : Kernel) (s : Session) :
    (Action.relieveMemory pressure topConsumers).run k s = s.relieveRisingPressure k := by
  simp only [Action.run, Session.evaluateMemoryPolicy, hrising]

theorem dirtyRatio_run_of_sets {k : Kernel} {action : Action} {s : Session}
    (h : action.SetsDirtyRatio k s) :
    (action.run k s).dirtyRatio = if 5 < s.dirtyRatio then s.dirtyRatio - 5 else 5 := by
  cases action with
  | relieveMemory pressure topConsumers =>
      obtain ⟨hrising, haccepted⟩ := h
      rw [run_relieveMemory hrising, dirtyRatio_relieveRisingPressure,
        readDirtyRatio_setDirtyRatio, if_pos haccepted, Session.relievedDirtyRatio,
        readDirtyRatio_pressedWorld]
  | _ => exact h.elim

theorem dirtyRatio_notMem_targets {action : Action}
    (h : ∀ pressure topConsumers, action ≠ .relieveMemory pressure topConsumers) :
    .dirtyRatio ∉ action.targets := by
  intro hmem
  cases Action.mayWrite_of_mem_targets hmem with
  | dirtyRatio pressure topConsumers => exact h pressure topConsumers rfl

theorem dirtyRatio_run_of_not_sets {k : Kernel} {action : Action} {s : Session}
    (h : ¬ action.SetsDirtyRatio k s) : (action.run k s).dirtyRatio = s.dirtyRatio := by
  by_cases hrelief : ∃ pressure topConsumers, action = .relieveMemory pressure topConsumers
  · obtain ⟨pressure, topConsumers, rfl⟩ := hrelief
    cases hlevel : MemGuard.classify pressure with
    | healthy => simp [Action.run, Session.evaluateMemoryPolicy, hlevel]
    | critical =>
        cases topConsumers <;> simp [Action.run, Session.evaluateMemoryPolicy, hlevel,
          MemGuard.requestGracefulTermination, World.kill, Session.dirtyRatio]
    | rising =>
        have hrefused : ¬ (s.pressedWorld k).answer k .dirtyRatio
            (decimalInt (Session.relievedDirtyRatio (s.pressedWorld k).files).toInt) =
              .accepted := fun haccepted ↦ h ⟨hlevel, haccepted⟩
        rw [run_relieveMemory hlevel, dirtyRatio_relieveRisingPressure,
          readDirtyRatio_setDirtyRatio, if_neg hrefused, readDirtyRatio_pressedWorld]
  · push Not at hrelief
    exact readDirtyRatio_congr
      ((Action.run_writes k action s).frame _ (dirtyRatio_notMem_targets hrelief))

theorem sub_five_le {ratio : Int32} (h : 5 < ratio) :
    ratio - 5 ≤ ratio ∧ (5 ≤ ratio - 5 ↔ 10 ≤ ratio) := by
  have hsub : (ratio - 5).toInt = ratio.toInt - 5 :=
    Int32.toInt_sub_of_le ratio 5 (by decide) (Int32.le_of_lt h)
  simp only [Int32.le_iff_toInt_le, hsub, show (5 : Int32).toInt = 5 from rfl,
    show (10 : Int32).toInt = 10 from rfl]
  omega

/-- From a ratio of five at least, an action keeps it so and does not raise it
exactly under the guard. -/
theorem keepsFloor_iff_of_le (k : Kernel) (action : Action) (s : Session)
    (h : 5 ≤ s.dirtyRatio) :
    ((action.run k s).dirtyRatio ≤ s.dirtyRatio ∧ 5 ≤ (action.run k s).dirtyRatio) ↔
      action.KeepsFloor k s := by
  by_cases hsets : action.SetsDirtyRatio k s
  · simp only [Action.KeepsFloor, hsets, true_imp_iff, dirtyRatio_run_of_sets hsets]
    split
    · next hgt =>
        obtain ⟨hle, hfloor⟩ := sub_five_le hgt
        rw [hfloor, and_iff_right hle, or_iff_right (Int32.ne_of_lt hgt).symm]
    · next hnot =>
        have hfive : s.dirtyRatio = 5 := Int32.le_antisymm (Int32.not_lt.mp hnot) h
        simp [hfive]
  · simp [Action.KeepsFloor, hsets, dirtyRatio_run_of_not_sets hsets, h]

/-- A ratio below five is raised whenever it is set. -/
theorem keepsFloor_iff_of_lt (k : Kernel) (action : Action) (s : Session)
    (h : s.dirtyRatio < 5) :
    ((action.run k s).dirtyRatio ≤ s.dirtyRatio ∧ (action.run k s).dirtyRatio < 5) ↔
      action.KeepsFloor k s := by
  by_cases hsets : action.SetsDirtyRatio k s
  · have hnot : ¬ 5 < s.dirtyRatio := Int32.not_lt.mpr (Int32.le_of_lt h)
    simp only [Action.KeepsFloor, hsets, true_imp_iff, dirtyRatio_run_of_sets hsets, if_neg hnot]
    refine iff_of_false (fun hfive ↦ absurd hfive.2 (by decide)) ?_
    rintro (hfive | hten)
    · exact absurd (hfive ▸ h) (by decide)
    · exact absurd (Int32.lt_of_le_of_lt hten h) (by decide)
  · simp [Action.KeepsFloor, hsets, dirtyRatio_run_of_not_sets hsets, h]

/-! ## Runs -/

theorem guarded_keepsFloor_iff (k : Kernel) (actions : List Action) (s : Session) :
    (Run.Guarded (Action.run k) (fun action t ↦ (action.run k t).dirtyRatio ≤ t.dirtyRatio)
        actions s ∧
      (5 ≤ s.dirtyRatio → Run.Always (Action.run k) (fun t ↦ 5 ≤ t.dirtyRatio) actions s)) ↔
      Run.Guarded (Action.run k) (Action.KeepsFloor k) actions s := by
  by_cases hfloor : 5 ≤ s.dirtyRatio
  · simp only [hfloor, true_imp_iff]
    exact Run.guarded_and_always_iff (I := fun t : Session ↦ 5 ≤ t.dirtyRatio)
      (keepsFloor_iff_of_le k) hfloor
  · have hlow : s.dirtyRatio < 5 := Int32.not_le.mp hfloor
    rw [← Run.guarded_and_always_iff (I := fun t : Session ↦ t.dirtyRatio < 5)
      (keepsFloor_iff_of_lt k) hlow]
    refine and_congr_right fun hguarded ↦ iff_of_true (fun h ↦ absurd h hfloor) ?_
    refine Run.always_of_guarded (fun action t ht hle ↦ ?_) hlow hguarded
    exact Int32.lt_of_le_of_lt hle ht

/-! ## A kernel that accepts the ratio -/

def Action.raisesPressure : Action → Bool
  | relieveMemory pressure _ => MemGuard.classify pressure = .rising
  | _ => false

def TickInput.isRising (input : TickInput) : Bool :=
  MemGuard.classify input.policyPressure = .rising

/-- What a number of settings of the ratio can be made from it without raising
it or going below five. -/
def RelievableBy (n : ℕ) (ratio : ℤ) : Prop :=
  n = 0 ∨ 5 ≤ ratio ∧ (ratio % 5 = 0 ∨ 5 * ((n : ℤ) + 1) ≤ ratio)

theorem relievableBy_succ (n : ℕ) (ratio : ℤ) :
    RelievableBy (n + 1) ratio ↔ (ratio = 5 ∨ 10 ≤ ratio) ∧
      RelievableBy n (if 5 < ratio then ratio - 5 else 5) := by
  unfold RelievableBy
  split <;> omega

theorem sets_iff_raisesPressure {k : Kernel}
    (hk : ∀ count files value, k count files .dirtyRatio value = .accepted) {s : Session}
    (hpresent : (s.world.files .dirtyRatio).isSome = true) (action : Action) :
    action.SetsDirtyRatio k s ↔ action.raisesPressure = true := by
  cases action with
  | relieveMemory pressure topConsumers =>
      have hstill : ((s.pressedWorld k).files .dirtyRatio).isSome = true :=
        (World.isSome_writeValue_files k _ _ _ _).trans hpresent
      simp [Action.SetsDirtyRatio, Action.raisesPressure, World.answer, hstill, hk]
  | _ => simp [Action.SetsDirtyRatio, Action.raisesPressure]

theorem toInt_dirtyRatio_run {k : Kernel} {action : Action} {s : Session}
    (h : action.SetsDirtyRatio k s) : (action.run k s).dirtyRatio.toInt =
      if 5 < s.dirtyRatio.toInt then s.dirtyRatio.toInt - 5 else 5 := by
  have hiff : 5 < s.dirtyRatio ↔ 5 < s.dirtyRatio.toInt := Int32.lt_iff_toInt_lt
  rw [dirtyRatio_run_of_sets h]
  by_cases hgt : 5 < s.dirtyRatio
  · rw [if_pos hgt, if_pos (hiff.mp hgt)]
    exact Int32.toInt_sub_of_le s.dirtyRatio 5 (by decide) (Int32.le_of_lt hgt)
  · rw [if_neg hgt, if_neg (mt hiff.mpr hgt)]
    rfl

theorem guarded_keepsFloor_iff_relievableBy {k : Kernel}
    (hk : ∀ count files value, k count files .dirtyRatio value = .accepted)
    (actions : List Action) {s : Session}
    (hpresent : (s.world.files .dirtyRatio).isSome = true) :
    Run.Guarded (Action.run k) (Action.KeepsFloor k) actions s ↔
      RelievableBy (actions.countP Action.raisesPressure) s.dirtyRatio.toInt := by
  induction actions generalizing s with
  | nil => simp [Run.Guarded, RelievableBy]
  | cons action actions ih =>
      have hnext : ((action.run k s).world.files .dirtyRatio).isSome = true :=
        ((Action.run_writes k action s).isSome_eq _).trans hpresent
      have hsets := sets_iff_raisesPressure hk hpresent action
      rw [Run.Guarded, ih hnext, List.countP_cons, Action.KeepsFloor]
      cases hraises : action.raisesPressure with
      | true =>
          have hset := hsets.mpr hraises
          have hfive : s.dirtyRatio = 5 ↔ s.dirtyRatio.toInt = 5 := Int32.toInt_inj.symm
          have hten : 10 ≤ s.dirtyRatio ↔ 10 ≤ s.dirtyRatio.toInt := Int32.le_iff_toInt_le
          rw [if_pos rfl, relievableBy_succ, toInt_dirtyRatio_run hset, hfive, hten]
          simp [hset]
      | false =>
          have hset : ¬ action.SetsDirtyRatio k s := by simp [hsets, hraises]
          rw [dirtyRatio_run_of_not_sets hset]
          simp [hset]

theorem countP_raisesPressure (cores : List CpuCoreInfo) (blocks : BlockLayer)
    (inputs : List TickInput) :
    (runActions cores blocks inputs).countP Action.raisesPressure =
      inputs.countP TickInput.isRising := by
  have hinitial : (initialActions cores blocks).countP Action.raisesPressure = 0 := by
    simp [initialActions, List.countP_eq_zero, Action.raisesPressure]
  have htick (input : TickInput) : (tickActions cores input).countP Action.raisesPressure =
      if input.isRising then 1 else 0 := by
    have hload : (loadActions cores input).countP Action.raisesPressure = 0 := by
      rw [List.countP_eq_zero]
      intro action haction
      obtain ⟨cpuId, -, eppValue, rfl⟩ := mem_loadActions_cases haction
      exact Bool.false_ne_true
    have hio : (ioActions input).countP Action.raisesPressure = 0 := by
      rw [List.countP_eq_zero]
      intro action haction
      obtain ⟨deviceName, -, sample, rfl⟩ := mem_ioActions_cases haction
      exact Bool.false_ne_true
    have hthermal : (thermalActions cores input.thermalZones).countP Action.raisesPressure = 0 := by
      simp [thermalActions, List.countP_eq_zero, Action.raisesPressure]
    rw [tickActions, List.countP_append, List.countP_append, List.countP_cons, hthermal, hload, hio]
    simp [Action.raisesPressure, TickInput.isRising]
  rw [runActions, List.countP_append, hinitial, zero_add]
  induction inputs with
  | nil => rfl
  | cons input inputs ih =>
      rw [List.flatMap_cons, List.countP_append, ih, htick, List.countP_cons, add_comm]

/-- Over the actions of a run, the ratio never rises, and never falls below
five when it starts at five or above, if and only if every accepted write of it
finds it at five, or at ten or above.  If the kernel accepts all of them, this
is a condition on the start and on the number of ticks under rising pressure. -/
theorem dirtyRatio_nonincreasing_iff (k : Kernel) (cores : List CpuCoreInfo)
    (blocks : BlockLayer) (inputs : List TickInput) (w : World) :
    let s : Session := ⟨PolicyEngine.new cores, w⟩
    let actions := runActions cores blocks inputs
    s.run k blocks inputs = Run.exec (Action.run k) actions s ∧
      ((Run.Guarded (Action.run k) (fun action t ↦ (action.run k t).dirtyRatio ≤ t.dirtyRatio)
          actions s ∧
        (5 ≤ s.dirtyRatio → Run.Always (Action.run k) (fun t ↦ 5 ≤ t.dirtyRatio) actions s)) ↔
        Run.Guarded (Action.run k) (Action.KeepsFloor k) actions s) ∧
      ((∀ count files value, k count files .dirtyRatio value = .accepted) →
        (w.files .dirtyRatio).isSome = true →
          (Run.Guarded (Action.run k) (Action.KeepsFloor k) actions s ↔
            RelievableBy (inputs.countP TickInput.isRising) s.dirtyRatio.toInt)) := by
  intro s actions
  refine ⟨Action.run_eq k blocks inputs s, guarded_keepsFloor_iff k actions s,
    fun hk hpresent ↦ ?_⟩
  rw [← countP_raisesPressure cores blocks]
  exact guarded_keepsFloor_iff_relievableBy hk actions hpresent

def ratioFiles (ratio : Int32) : Sysfs
  | .vfsCachePressure => some (decimalInt 100 ++ ['\n'])
  | .dirtyRatio => some (decimalInt ratio.toInt ++ ['\n'])
  | _ => none

def pressedTick : TickInput where
  pressure := ⟨6, 0, 0⟩
  zones := []
  load := ⟨0, 0, 0⟩
  onlineCores := 0
  thermalZones := []
  policyLoad := ⟨0, 0, 0⟩
  policyOnlineCores := 0
  policyPressure := ⟨6, 0, 0⟩
  topConsumers := []
  blocks := ⟨[], fun _ ↦ none, fun d ↦ ⟨d, 0, 0, 0, 0, 0, 0⟩⟩

/-- Two ticks under rising pressure take a ratio of six to one and then to
five. -/
theorem not_dirtyRatio_nonincreasing_six :
    let s : Session := ⟨PolicyEngine.new [], ⟨ratioFiles 6, [], []⟩⟩
    let actions := runActions [] pressedTick.blocks [pressedTick, pressedTick]
    ¬ (Run.Guarded (Action.run .willing)
          (fun action t ↦ (action.run .willing t).dirtyRatio ≤ t.dirtyRatio) actions s ∧
        (5 ≤ s.dirtyRatio →
          Run.Always (Action.run .willing) (fun t ↦ 5 ≤ t.dirtyRatio) actions s)) := by
  rintro s actions ⟨⟨-, hraised, -⟩, -⟩
  exact absurd hraised (by decide +kernel)

end BetterCpu
