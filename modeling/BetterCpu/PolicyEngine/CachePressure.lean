import BetterCpu.PolicyEngine.DirtyRatio

/-!
# The cache pressure

Rising pressure adds twenty to what `vfs_cache_pressure` shows, and nothing
takes it away again while the daemon lives.  The addition is one of 32 bit
integers, so it is in range as long as the attribute is twenty below their
maximum.
-/

namespace BetterCpu

open Text

def Session.cachePressure (s : Session) : Int32 :=
  MemGuard.readVfsCachePressure s.world.files

/-- The addition, if there is one, does not overflow, and the attribute does not
show less than before. -/
structure Action.RatchetsInRange (k : Kernel) (action : Action) (s : Session) : Prop where
  toInt_add : action.raisesPressure = true →
    (s.cachePressure + 20).toInt = s.cachePressure.toInt + 20
  le : s.cachePressure ≤ (action.run k s).cachePressure

/-- Under rising pressure, there are twenty left to the maximum. -/
def Action.HasRoom (action : Action) (s : Session) : Prop :=
  action.raisesPressure = true → s.cachePressure.toInt + 20 < 2 ^ 31

/-! ## One action -/

theorem toInt_add_twenty_iff (pressure : Int32) :
    (pressure + 20).toInt = pressure.toInt + 20 ↔ pressure.toInt + 20 < 2 ^ 31 := by
  have hsum := Int32.toInt_add pressure 20
  have hlow := pressure.le_toInt
  have hhigh := (pressure + 20).toInt_lt
  constructor
  · intro hexact
    omega
  · intro hroom
    rw [hsum, show (20 : Int32).toInt = 20 from rfl]
    apply Int.bmod_eq_of_le <;> omega

theorem readVfsCachePressure_congr {files files' : Sysfs}
    (h : files' .vfsCachePressure = files .vfsCachePressure) :
    MemGuard.readVfsCachePressure files' = MemGuard.readVfsCachePressure files := by
  simp [MemGuard.readVfsCachePressure, h]

theorem cachePressure_run_of_not_raises {action : Action} (h : action.raisesPressure = false)
    (k : Kernel) (s : Session) : (action.run k s).cachePressure = s.cachePressure := by
  refine readVfsCachePressure_congr ((Action.run_writes k action s).frame _ fun hmem ↦ ?_)
  cases Action.mayWrite_of_mem_targets hmem with
  | vfsCachePressure pressure topConsumers hrising =>
      simp [Action.raisesPressure, hrising] at h

/-- Behind the write of the cache pressure, only the dirty ratio is written. -/
theorem cachePressure_run_of_raises {action : Action} (h : action.raisesPressure = true)
    (k : Kernel) (s : Session) :
    (action.run k s).cachePressure =
      if s.world.answer k .vfsCachePressure (decimalInt (s.cachePressure + 20).toInt) = .accepted
      then s.cachePressure + 20 else s.cachePressure := by
  cases action with
  | relieveMemory pressure topConsumers =>
      have hrising : MemGuard.classify pressure = .rising := by
        simpa [Action.raisesPressure] using h
      have hratio : (s.relieveRisingPressure k).cachePressure =
          MemGuard.readVfsCachePressure (s.pressedWorld k).files :=
        readVfsCachePressure_congr (World.writeValue_files_of_ne k _ (s.pressedWorld k) (by simp))
      rw [run_relieveMemory hrising, hratio]
      exact readInt_writeValue k (fun _ ↦ rfl) 100 _ s.world
  | _ => cases h

/-- An action keeps the cache pressure in range exactly if there is room. -/
theorem ratchetsInRange_iff (k : Kernel) (action : Action) (s : Session) :
    action.RatchetsInRange k s ↔ action.HasRoom s := by
  constructor
  · intro h hraises
    exact (toInt_add_twenty_iff _).mp (h.toInt_add hraises)
  · intro hroom
    refine ⟨fun hraises ↦ (toInt_add_twenty_iff _).mpr (hroom hraises), ?_⟩
    cases hraises : action.raisesPressure with
    | false => rw [cachePressure_run_of_not_raises hraises]; exact Int32.le_refl _
    | true =>
        have hexact := (toInt_add_twenty_iff _).mpr (hroom hraises)
        rw [cachePressure_run_of_raises hraises]
        split
        · rw [Int32.le_iff_toInt_le, hexact]
          omega
        · exact Int32.le_refl _

/-! ## Runs -/

/-- A kernel that accepts the values that are in range, and may refuse others. -/
def Kernel.AcceptsPressures (k : Kernel) : Prop :=
  ∀ (count : ℕ) (files : Sysfs) (value : ℕ), value < 2 ^ 31 →
    k count files .vfsCachePressure (decimal value) = .accepted

theorem answer_of_acceptsPressures {k : Kernel} (hk : k.AcceptsPressures) {s : Session}
    (hpresent : (s.world.files .vfsCachePressure).isSome = true) {pressure : Int32}
    (hnonneg : 0 ≤ pressure.toInt) :
    s.world.answer k .vfsCachePressure (decimalInt pressure.toInt) = .accepted := by
  have hvalue : decimalInt pressure.toInt = decimal pressure.toInt.toNat := by
    rw [decimalInt, if_neg (not_lt.mpr hnonneg)]
    congr 1
    omega
  have hlt := pressure.toInt_lt
  rw [World.answer, if_pos hpresent, hvalue]
  exact hk _ _ _ (by omega)

/-- If the kernel accepts, the room is used up in steps of twenty. -/
theorem guarded_hasRoom_iff {k : Kernel} (hk : k.AcceptsPressures) (actions : List Action)
    {s : Session} (hpresent : (s.world.files .vfsCachePressure).isSome = true)
    (hnonneg : 0 ≤ s.cachePressure.toInt) :
    Run.Guarded (Action.run k) Action.HasRoom actions s ↔
      s.cachePressure.toInt + 20 * actions.countP Action.raisesPressure < 2 ^ 31 := by
  induction actions generalizing s with
  | nil =>
      have hlt := s.cachePressure.toInt_lt
      simp only [Run.Guarded, List.countP_nil, true_iff]
      omega
  | cons action actions ih =>
      have hnext : ((action.run k s).world.files .vfsCachePressure).isSome = true :=
        ((Action.run_writes k action s).isSome_eq _).trans hpresent
      rw [Run.Guarded, List.countP_cons]
      cases hraises : action.raisesPressure with
      | false =>
          have hsame := cachePressure_run_of_not_raises hraises k s
          rw [ih hnext (by rwa [hsame]), hsame]
          simp [Action.HasRoom, hraises]
      | true =>
          simp only [Action.HasRoom, hraises, true_imp_iff, if_true]
          by_cases hroom : s.cachePressure.toInt + 20 < 2 ^ 31
          · have hexact := (toInt_add_twenty_iff _).mpr hroom
            have hnonneg : 0 ≤ (s.cachePressure + 20).toInt := by omega
            have haccepted := answer_of_acceptsPressures hk hpresent hnonneg
            have hraised := cachePressure_run_of_raises hraises k s
            rw [if_pos haccepted] at hraised
            rw [ih hnext (by rw [hraised]; omega), hraised, hexact, and_iff_right hroom]
            push_cast
            omega
          · refine iff_of_false (fun h ↦ hroom h.1) ?_
            push_cast
            omega

/-- Over the actions of a run, the addition never overflows and the cache
pressure never falls if and only if every tick under rising pressure finds it
twenty below the maximum at least.  From a value that the kernel reports, and
with a kernel that accepts the values in range, this is a bound on the number
of these ticks. -/
theorem cachePressure_inRange_iff (k : Kernel) (cores : List CpuCoreInfo) (blocks : BlockLayer)
    (inputs : List TickInput) (w : World) :
    let s : Session := ⟨PolicyEngine.new cores, w⟩
    let actions := runActions cores blocks inputs
    s.run k blocks inputs = Run.exec (Action.run k) actions s ∧
      (Run.Guarded (Action.run k) (Action.RatchetsInRange k) actions s ↔
        Run.Guarded (Action.run k) Action.HasRoom actions s) ∧
      (k.AcceptsPressures → ∀ initial < 2 ^ 31,
        w.files .vfsCachePressure = some (decimal initial ++ ['\n']) →
          (Run.Guarded (Action.run k) (Action.RatchetsInRange k) actions s ↔
            initial + 20 * inputs.countP TickInput.isRising < 2 ^ 31)) := by
  intro s actions
  have hiff : Run.Guarded (Action.run k) (Action.RatchetsInRange k) actions s ↔
      Run.Guarded (Action.run k) Action.HasRoom actions s :=
    Run.guarded_congr (ratchetsInRange_iff k)
  refine ⟨Action.run_eq k blocks inputs s, hiff, fun hk initial hinitial hfile ↦ ?_⟩
  have hpressure : s.cachePressure.toInt = initial := by
    have hvalue : (Int32.ofInt initial).toInt = initial :=
      Int32.toInt_ofInt_of_le (by omega) (by omega)
    have hread := IStream.int32_line 100 (Int32.ofInt initial)
    rw [hvalue, decimalInt, if_neg (by omega), Int.natAbs_natCast] at hread
    have hcache : s.cachePressure = Int32.ofInt initial := by
      simpa only [Session.cachePressure, MemGuard.readVfsCachePressure, s, hfile, readInt]
        using hread
    rw [hcache, hvalue]
  rw [hiff, guarded_hasRoom_iff hk actions (by simp [s, hfile]) (by omega), hpressure,
    countP_raisesPressure]
  omega

def pressureFiles (initial : ℕ) : Sysfs
  | .vfsCachePressure => some (decimal initial ++ ['\n'])
  | .dirtyRatio => some (decimal 20 ++ ['\n'])
  | _ => none

/-- At the maximum, the first tick under rising pressure overflows. -/
theorem not_cachePressure_inRange_maximum :
    ¬ Run.Guarded (Action.run .willing) (Action.RatchetsInRange .willing)
      (runActions [] pressedTick.blocks [pressedTick])
      ⟨PolicyEngine.new [], ⟨pressureFiles (2 ^ 31 - 1), [], []⟩⟩ := by
  rintro ⟨hfirst, -⟩
  exact absurd (hfirst.toInt_add (by decide +kernel)) (by decide +kernel)

theorem cachePressure_inRange_default :
    Run.Guarded (Action.run .willing) (Action.RatchetsInRange .willing)
      (runActions [] pressedTick.blocks [pressedTick, pressedTick, pressedTick])
      ⟨PolicyEngine.new [], ⟨pressureFiles 100, [], []⟩⟩ := by
  obtain ⟨-, -, hbound⟩ := cachePressure_inRange_iff .willing [] pressedTick.blocks
    [pressedTick, pressedTick, pressedTick] ⟨pressureFiles 100, [], []⟩
  exact (hbound (fun _ _ _ _ ↦ rfl) 100 (by decide) rfl).mpr (by decide +kernel)

end BetterCpu
