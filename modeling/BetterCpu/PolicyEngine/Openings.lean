import BetterCpu.PolicyEngine.Thermal

/-!
# Which attributes a run opens

A cache skips a write only of an attribute that was opened before, and a cap is
below its original only once its attribute was opened.  So what has been opened
by the end of a run does not depend on the caches: it is what the actions reach
and what is there at the time.
-/

namespace BetterCpu

open Text Throttle

/-! ## Opened attributes -/

/-- The attribute has been opened for writing. -/
def World.Opened (w : World) (a : Attr) : Prop :=
  ∃ event ∈ w.writes, event.attr = a ∧ event.answer ≠ .refusedAtOpen

/-- A kernel that lets the daemon open every attribute that is there. -/
def Kernel.OpensAll (k : Kernel) : Prop :=
  ∀ count files a value, k count files a value ≠ .refusedAtOpen

/-- From `w` to `w'`, nothing is opened but attributes of `reach` that are there,
and a kernel that opens them all leaves none of these out. -/
structure World.Opens (k : Kernel) (reach : Attr → Prop) (w w' : World) : Prop where
  kept : ∀ a, w.Opened a → w'.Opened a
  within : ∀ a, w'.Opened a → w.Opened a ∨ reach a ∧ (w.files a).isSome = true
  all : k.OpensAll → ∀ a, reach a → (w.files a).isSome = true → w'.Opened a

namespace World

theorem opened_flush_iff {w : World} {a b : Attr} {value : Text} {answer : Answer} :
    (w.flush a value answer).Opened b ↔ w.Opened b ∨ a = b ∧ answer ≠ .refusedAtOpen := by
  simp only [Opened, flush, List.mem_append, List.mem_singleton, or_and_right, exists_or,
    exists_eq_left]

theorem answer_ne_refusedAtOpen_iff {k : Kernel} (hk : k.OpensAll) {w : World} {a : Attr}
    {value : Text} : w.answer k a value ≠ .refusedAtOpen ↔ (w.files a).isSome = true := by
  refine ⟨Writes.isSome_of_answer, fun hthere ↦ ?_⟩
  rw [answer, if_pos hthere]
  exact hk _ _ _ _

namespace Opens

variable {k : Kernel} {reach : Attr → Prop} {u v w : World}

theorem of_writes_eq (h : v.writes = u.writes) : Opens k (fun _ ↦ False) u v := by
  have hopened (a : Attr) : v.Opened a ↔ u.Opened a := by rw [Opened, h, Opened]
  exact ⟨fun a ↦ (hopened a).mpr, fun a ha ↦ Or.inl ((hopened a).mp ha), fun _ _ h ↦ h.elim⟩

theorem trans {reach' : Attr → Prop} (h₁ : Opens k reach u v) (h₂ : Opens k reach' v w)
    (hsome : ∀ a, (v.files a).isSome = (u.files a).isSome) :
    Opens k (fun a ↦ reach a ∨ reach' a) u w where
  kept a ha := h₂.kept a (h₁.kept a ha)
  within a ha := by
    rcases h₂.within a ha with hearlier | ⟨hreach, hthere⟩
    · exact (h₁.within a hearlier).imp_right fun h ↦ ⟨Or.inl h.1, h.2⟩
    · exact Or.inr ⟨Or.inr hreach, hsome a ▸ hthere⟩
  all hk a hreach hthere := by
    rcases hreach with hreach | hreach
    · exact h₂.kept a (h₁.all hk a hreach hthere)
    · exact h₂.all hk a hreach (by rwa [hsome])

theorem congr {reach' : Attr → Prop} (h : Opens k reach u v) (hreach : ∀ a, reach a ↔ reach' a) :
    Opens k reach' u v := by
  rwa [← funext fun a ↦ propext (hreach a)]

theorem writeValue (k : Kernel) (a : Attr) (value : Text) (w : World) :
    Opens k (a = ·) w (w.writeValue k a value).2 where
  kept b hb := opened_flush_iff.mpr (Or.inl hb)
  within b hb := by
    refine (opened_flush_iff.mp hb).imp_right ?_
    rintro ⟨rfl, hanswer⟩
    exact ⟨rfl, Writes.isSome_of_answer hanswer⟩
  all hk b hb hthere :=
    opened_flush_iff.mpr (Or.inr ⟨hb, (answer_ne_refusedAtOpen_iff hk).mpr (hb ▸ hthere)⟩)

theorem opened_of_writeValue {a : Attr} {value : Text} (h : (w.writeValue k a value).1 = true) :
    (w.writeValue k a value).2.Opened a :=
  opened_flush_iff.mpr (Or.inr ⟨rfl, by simpa [World.writeValue] using h⟩)

/-- A write that is skipped for a value in the cache opens nothing new if what
is in the cache was opened. -/
theorem setIfChanged {κ ν : Type*} [DecidableEq κ] [DecidableEq ν]
    {set : κ → ν → World → Bool × World} {a : κ → Attr} {text : ν → Text}
    (hset : ∀ key value w, set key value w = w.writeValue k (a key) (text value))
    {cache : κ → Option ν}
    (hcache : ∀ key value, cache key = some value → w.Opened (a key)) (key : κ) (value : ν) :
    Opens k (a key = ·) w (setIfChanged set cache key value w).2 := by
  unfold BetterCpu.setIfChanged setAndRecord
  split
  · next hskip =>
      have hopened := hcache key value hskip
      exact ⟨fun _ hb ↦ hb, fun _ hb ↦ Or.inl hb, fun _ _ hb _ ↦ hb ▸ hopened⟩
  · dsimp only
    rw [hset]
    exact writeValue k _ _ _

theorem remembered_setIfChanged {κ ν : Type*} [DecidableEq κ] [DecidableEq ν]
    {set : κ → ν → World → Bool × World} {a : κ → Attr} {text : ν → Text}
    (hset : ∀ key value w, set key value w = w.writeValue k (a key) (text value))
    {cache : κ → Option ν}
    (hcache : ∀ key value, cache key = some value → w.Opened (a key)) (key : κ) (value : ν)
    (other : κ) (v : ν) (hentry : (BetterCpu.setIfChanged set cache key value w).1 other = some v) :
    (BetterCpu.setIfChanged set cache key value w).2.Opened (a other) := by
  have hopens := setIfChanged hset hcache key value
  unfold BetterCpu.setIfChanged setAndRecord at hentry hopens ⊢
  split at hentry
  · next hskip =>
      rw [if_pos hskip] at hopens ⊢
      exact hcache other v hentry
  · next hwritten =>
      rw [if_neg hwritten] at hopens ⊢
      dsimp only at hentry hopens ⊢
      split at hentry
      · next hok =>
          by_cases hother : other = key
          · subst hother
            rw [hset] at hok ⊢
            exact opened_of_writeValue hok
          · rw [Function.update_of_ne hother] at hentry
            exact hopens.kept _ (hcache other v hentry)
      · exact hopens.kept _ (hcache other v hentry)

theorem setNvmeLatencyTarget (k : Kernel) (deviceName : Text) (readLatNs writeLatNs : UInt64)
    (w : World) :
    Opens k (fun a ↦ ((w.files (.readLatNsec deviceName)).isSome = true ∧
        (w.files (.writeLatNsec deviceName)).isSome = true) ∧
          (a = .readLatNsec deviceName ∨ a = .writeLatNsec deviceName))
      w (IoStorage.setNvmeLatencyTarget k deviceName readLatNs writeLatNs w).2 := by
  unfold IoStorage.setNvmeLatencyTarget
  dsimp only
  split
  · next hrefused =>
      refine ⟨fun _ ha ↦ ha, fun _ ha ↦ Or.inl ha, fun hk a ⟨⟨hread, hwrite⟩, _⟩ ↦ ?_⟩
      rcases hrefused with hrefused | hrefused
      · exact absurd hrefused ((answer_ne_refusedAtOpen_iff hk).mpr hread)
      · exact absurd hrefused ((answer_ne_refusedAtOpen_iff hk).mpr hwrite)
  · next hopen =>
      push Not at hopen
      have hthere : (w.files (.readLatNsec deviceName)).isSome = true ∧
          (w.files (.writeLatNsec deviceName)).isSome = true :=
        ⟨Writes.isSome_of_answer hopen.1, Writes.isSome_of_answer hopen.2⟩
      refine ⟨fun a ha ↦ ?_, fun a ha ↦ ?_, fun _ a ⟨_, ha⟩ _ ↦ ?_⟩
      · exact opened_flush_iff.mpr (Or.inl (opened_flush_iff.mpr (Or.inl ha)))
      · rcases opened_flush_iff.mp ha with ha | ⟨rfl, -⟩
        · rcases opened_flush_iff.mp ha with ha | ⟨rfl, -⟩
          · exact Or.inl ha
          · exact Or.inr ⟨⟨hthere, Or.inr rfl⟩, hthere.2⟩
        · exact Or.inr ⟨⟨hthere, Or.inl rfl⟩, hthere.1⟩
      · rcases ha with rfl | rfl
        · exact opened_flush_iff.mpr (Or.inr ⟨rfl, hopen.1⟩)
        · exact opened_flush_iff.mpr (Or.inl (opened_flush_iff.mpr (Or.inr ⟨rfl, hopen.2⟩)))

end Opens
end World

/-! ## One action -/

/-- What is in a cache has been opened, and so has the attribute of a cap below
its original. -/
structure Session.Remembers (s : Session) : Prop where
  governors : ∀ cpuId governor, s.engine.appliedGovernors cpuId = some governor →
    s.world.Opened (.scalingGovernor cpuId)
  epp : ∀ cpuId eppValue, s.engine.appliedEpp cpuId = some eppValue →
    s.world.Opened (.energyPerformancePreference cpuId)
  schedulers : ∀ deviceName scheduler, s.engine.appliedSchedulers deviceName = some scheduler →
    s.world.Opened (.queueScheduler deviceName)
  caps : ∀ cpuId original, s.engine.originalMaxFreqKhz cpuId = some original →
    ∃ cap, Session.Capped cpuId original cap s ∧
      (cap = original ∨ s.world.Opened (.scalingMaxFreq cpuId))

/-- The attributes that an action opens unless they were opened before.  A cap
that is below its original was, and one of less than 20 is never moved. -/
def Action.Reaches : Action → Session → Attr → Prop
  | initializeCore cpuId, _, a => .scalingGovernor cpuId = a
  | initializeDevice deviceName kind, _, a =>
      (kind = .nvme ∨ kind = .hdd) ∧ .queueScheduler deviceName = a
  | capCore readings cpuId, s, a =>
      Session.anyAbove kThermalPassiveDefaultMillidegrees readings = true ∧
        (∃ original, s.engine.originalMaxFreqKhz cpuId = some original ∧ 20 ≤ original) ∧
          .scalingMaxFreq cpuId = a
  | setEpp cpuId _, _, a => .energyPerformancePreference cpuId = a
  | relieveMemory pressure _, _, a =>
      MemGuard.classify pressure = .rising ∧ (.vfsCachePressure = a ∨ .dirtyRatio = a)
  | scheduleNvme deviceName sample, s, a =>
      .queueScheduler deviceName = a ∨
        ¬ 4 < sample.ioInProgress ∧
          ((s.world.files (.readLatNsec deviceName)).isSome = true ∧
            (s.world.files (.writeLatNsec deviceName)).isSome = true) ∧
              (a = .readLatNsec deviceName ∨ a = .writeLatNsec deviceName)

namespace Session

variable {k : Kernel} {s s' : Session}

theorem Remembers.caps_of_eq (hs : s.Remembers) (kept : ∀ a, s.world.Opened a → s'.world.Opened a)
    {cpuId : Int32} {original : UInt64}
    (hcurrent : s'.engine.currentMaxFreqKhz cpuId = s.engine.currentMaxFreqKhz cpuId)
    (horiginal : s'.engine.originalMaxFreqKhz cpuId = s.engine.originalMaxFreqKhz cpuId)
    (h : s'.engine.originalMaxFreqKhz cpuId = some original) :
    ∃ cap, Capped cpuId original cap s' ∧
      (cap = original ∨ s'.world.Opened (.scalingMaxFreq cpuId)) := by
  obtain ⟨cap, hcap, hopened⟩ := hs.caps cpuId original (horiginal ▸ h)
  exact ⟨cap, ⟨h, hcurrent.trans hcap.current_eq, hcap.mem_Icc⟩, hopened.imp_right (kept _)⟩

/-- What is remembered stays so while only more is opened. -/
theorem Remembers.mono (hs : s.Remembers) (hengine : s'.engine = s.engine)
    (kept : ∀ a, s.world.Opened a → s'.world.Opened a) : s'.Remembers where
  governors cpuId governor h := kept _ (hs.governors cpuId governor (hengine ▸ h))
  epp cpuId eppValue h := kept _ (hs.epp cpuId eppValue (hengine ▸ h))
  schedulers deviceName scheduler h := kept _ (hs.schedulers deviceName scheduler (hengine ▸ h))
  caps _ _ h := hs.caps_of_eq kept (by rw [hengine]) (by rw [hengine]) h

/-! ### The setters with a cache -/

theorem Remembers.opens_setGovernorIfChanged (hs : s.Remembers) (cpuId : Int32)
    (governor : Text) :
    World.Opens k (.scalingGovernor cpuId = ·) s.world
      (s.setGovernorIfChanged k cpuId governor).world :=
  World.Opens.setIfChanged (fun _ _ _ ↦ rfl) hs.governors cpuId governor

theorem Remembers.opens_setEppIfChanged (hs : s.Remembers) (cpuId eppValue : Int32) :
    World.Opens k (.energyPerformancePreference cpuId = ·) s.world
      (s.setEppIfChanged k cpuId eppValue).world :=
  World.Opens.setIfChanged (fun _ _ _ ↦ rfl) hs.epp cpuId eppValue

theorem Remembers.opens_setSchedulerIfChanged (hs : s.Remembers) (deviceName scheduler : Text) :
    World.Opens k (.queueScheduler deviceName = ·) s.world
      (s.setSchedulerIfChanged k deviceName scheduler).world :=
  World.Opens.setIfChanged (fun _ _ _ ↦ rfl) hs.schedulers deviceName scheduler

theorem Remembers.setGovernorIfChanged (hs : s.Remembers) (cpuId : Int32) (governor : Text) :
    (s.setGovernorIfChanged k cpuId governor).Remembers := by
  have kept := (hs.opens_setGovernorIfChanged (k := k) cpuId governor).kept
  exact ⟨World.Opens.remembered_setIfChanged (fun _ _ _ ↦ rfl) hs.governors cpuId governor,
    fun _ _ h ↦ kept _ (hs.epp _ _ h), fun _ _ h ↦ kept _ (hs.schedulers _ _ h),
    fun _ _ h ↦ hs.caps_of_eq kept rfl rfl h⟩

theorem Remembers.setEppIfChanged (hs : s.Remembers) (cpuId eppValue : Int32) :
    (s.setEppIfChanged k cpuId eppValue).Remembers := by
  have kept := (hs.opens_setEppIfChanged (k := k) cpuId eppValue).kept
  exact ⟨fun _ _ h ↦ kept _ (hs.governors _ _ h),
    World.Opens.remembered_setIfChanged (fun _ _ _ ↦ rfl) hs.epp cpuId eppValue,
    fun _ _ h ↦ kept _ (hs.schedulers _ _ h), fun _ _ h ↦ hs.caps_of_eq kept rfl rfl h⟩

theorem Remembers.setSchedulerIfChanged (hs : s.Remembers) (deviceName scheduler : Text) :
    (s.setSchedulerIfChanged k deviceName scheduler).Remembers := by
  have kept := (hs.opens_setSchedulerIfChanged (k := k) deviceName scheduler).kept
  exact ⟨fun _ _ h ↦ kept _ (hs.governors _ _ h), fun _ _ h ↦ kept _ (hs.epp _ _ h),
    World.Opens.remembered_setIfChanged (fun _ _ _ ↦ rfl) hs.schedulers deviceName scheduler,
    fun _ _ h ↦ hs.caps_of_eq kept rfl rfl h⟩

/-- The initial state records a cap that is the original. -/
theorem Remembers.initializeCore (hs : s.Remembers) (cpuId : Int32) :
    (s.initializeCore k cpuId).Remembers := by
  have hset := hs.setGovernorIfChanged (k := k) cpuId schedutil
  refine ⟨hset.governors, hset.epp, hset.schedulers, fun other original h ↦ ?_⟩
  by_cases hother : other = cpuId
  · subst hother
    have hcurrent : (s.initializeCore k other).engine.currentMaxFreqKhz other = some original := by
      simp only [Session.initializeCore, Function.update_self] at h ⊢
      exact h
    exact ⟨original, ⟨h, hcurrent, half_le original, le_rfl⟩, Or.inl rfl⟩
  · have kept (a : Attr) (ha : (s.setGovernorIfChanged k cpuId schedutil).world.Opened a) :
        (s.initializeCore k cpuId).world.Opened a := ha
    exact hset.caps_of_eq kept (Function.update_of_ne hother _ _)
      (Function.update_of_ne hother _ _) h

/-! ### The cap of a core -/

theorem reduce_eq_of_lt {cap : UInt64} (h : cap < 20) : reduce cap = cap := by
  rw [UInt64.lt_iff_toNat_lt] at h
  rw [← UInt64.toNat_inj, toNat_reduce]
  have : (20 : UInt64).toNat = 20 := rfl
  omega

/-- A hot step lowers a cap of at least 20 that is at its original. -/
theorem step_hot_lt {original : UInt64} (h : 20 ≤ original) :
    step reduce (original / 2) original .hot original < original := by
  rw [UInt64.le_iff_toNat_le] at h
  have htwenty : (20 : UInt64).toNat = 20 := rfl
  refine max_lt ?_ ?_
  · rw [UInt64.lt_iff_toNat_lt, toNat_reduce]
    omega
  · have hhalf : (original / 2).toNat = original.toNat / 2 := UInt64.toNat_div _ _
    rw [UInt64.lt_iff_toNat_lt, hhalf]
    omega

/-- A step that moves a cap away from its original is a hot one. -/
theorem hot_of_step_ne {original : UInt64} {heat : Heat}
    (h : step reduce (original / 2) original heat original ≠ original) :
    heat = .hot ∧ 20 ≤ original := by
  cases heat with
  | cool | warm => exact absurd rfl h
  | hot =>
      refine ⟨rfl, ?_⟩
      by_contra hsmall
      rw [step, reduce_eq_of_lt (not_le.mp hsmall), max_eq_left (half_le original)] at h
      exact h rfl

theorem heat_eq_hot_iff {readings : List ThermalZoneReading} :
    heat readings = .hot ↔ anyAbove kThermalPassiveDefaultMillidegrees readings = true := by
  unfold heat
  split
  · next hhot => simp [hhot]
  · next hnot => split <;> simp [hnot]

theorem Remembers.opens_capCore (hs : s.Remembers) (readings : List ThermalZoneReading)
    (cpuId : Int32) :
    World.Opens k ((Action.capCore readings cpuId).Reaches s) s.world
      (s.capCore k readings cpuId).world := by
  cases horiginal : s.engine.originalMaxFreqKhz cpuId with
  | none =>
      have hsame : s.capCore k readings cpuId = s := by simp [capCore, horiginal]
      rw [hsame]
      exact (World.Opens.of_writes_eq rfl).congr fun a ↦ by simp [Action.Reaches, horiginal]
  | some original =>
      obtain ⟨cap, hcap, hopened⟩ := hs.caps cpuId original horiginal
      have hstep := thermalTarget_eq_step readings hcap.mem_Icc.2
      unfold capCore
      simp only [horiginal, hcap.current_eq, Option.getD_some, hstep]
      split
      · next hmove =>
          have hwrite := World.Opens.writeValue k (.scalingMaxFreq cpuId)
            (decimal (step reduce (original / 2) original (heat readings) cap).toNat) s.world
          refine ⟨hwrite.kept, fun a ha ↦ ?_, fun hk a ha ↦ hwrite.all hk a ha.2.2⟩
          rcases hwrite.within a ha with hearlier | ⟨rfl, hthere⟩
          · exact Or.inl hearlier
          · rcases hopened with rfl | hopened
            · obtain ⟨hhot, hlarge⟩ := hot_of_step_ne hmove
              exact Or.inr ⟨⟨heat_eq_hot_iff.mp hhot, ⟨cap, horiginal, hlarge⟩, rfl⟩, hthere⟩
            · exact Or.inl hopened
      · next hkeep =>
          refine ⟨fun _ ha ↦ ha, fun _ ha ↦ Or.inl ha, ?_⟩
          rintro - a ⟨hhot, ⟨original', horiginal', hlarge⟩, rfl⟩ -
          obtain rfl : original = original' := Option.some.inj (horiginal.symm.trans horiginal')
          rcases hopened with rfl | hopened
          · rw [heat_eq_hot_iff.mpr hhot, not_not] at hkeep
            exact absurd hkeep (step_hot_lt hlarge).ne
          · exact hopened

theorem current_capCore_or_opened (k : Kernel) (readings : List ThermalZoneReading)
    (cpuId : Int32) (s : Session) :
    (s.capCore k readings cpuId).engine.currentMaxFreqKhz cpuId =
        s.engine.currentMaxFreqKhz cpuId ∨
      (s.capCore k readings cpuId).world.Opened (.scalingMaxFreq cpuId) := by
  unfold capCore
  split
  · exact Or.inl rfl
  · dsimp only
    split
    · dsimp only [setAndRecord]
      split
      · next hok => exact Or.inr (World.Opens.opened_of_writeValue hok)
      · exact Or.inl rfl
    · exact Or.inl rfl

theorem engine_capCore (k : Kernel) (readings : List ThermalZoneReading) (cpuId : Int32)
    (s : Session) :
    ∃ current, (s.capCore k readings cpuId).engine =
      { s.engine with currentMaxFreqKhz := current } := by
  unfold capCore
  split
  · exact ⟨_, rfl⟩
  · dsimp only
    split
    · exact ⟨_, rfl⟩
    · exact ⟨_, rfl⟩

theorem Remembers.capCore (hs : s.Remembers) (readings : List ThermalZoneReading)
    (cpuId : Int32) : (s.capCore k readings cpuId).Remembers := by
  have kept := (hs.opens_capCore (k := k) readings cpuId).kept
  obtain ⟨current, hengine⟩ := engine_capCore k readings cpuId s
  refine ⟨fun _ _ h ↦ ?_, fun _ _ h ↦ ?_, fun _ _ h ↦ ?_, fun other original h ↦ ?_⟩
  · exact kept _ (hs.governors _ _ (by rwa [hengine] at h))
  · exact kept _ (hs.epp _ _ (by rwa [hengine] at h))
  · exact kept _ (hs.schedulers _ _ (by rwa [hengine] at h))
  · by_cases hother : other = cpuId
    · subst hother
      rcases current_capCore_or_opened k readings other s with hsame | hopened
      · exact hs.caps_of_eq kept hsame (by rw [hengine]) h
      · have horiginal : s.engine.originalMaxFreqKhz other = some original := by
          rwa [hengine] at h
        obtain ⟨cap, hcap, -⟩ := hs.caps other original horiginal
        obtain ⟨cap', hcap', -⟩ := hcap.capCore_self (k := k) readings
        exact ⟨cap', hcap', Or.inr hopened⟩
    · obtain ⟨horiginal, hcurrent⟩ := capCore_of_ne k readings s hother
      exact hs.caps_of_eq kept hcurrent horiginal h

/-! ### The spec of an action -/

theorem Remembers.opens_run (hs : s.Remembers) (action : Action) :
    World.Opens k (action.Reaches s) s.world (action.run k s).world := by
  cases action with
  | initializeCore cpuId => exact hs.opens_setGovernorIfChanged cpuId schedutil
  | initializeDevice deviceName kind =>
      cases kind with
      | nvme =>
          exact (hs.opens_setSchedulerIfChanged deviceName noneScheduler).congr
            fun a ↦ by simp [Action.Reaches]
      | hdd =>
          exact (hs.opens_setSchedulerIfChanged deviceName mqDeadline).congr
            fun a ↦ by simp [Action.Reaches]
      | ssdSata | unknown =>
          exact (World.Opens.of_writes_eq rfl).congr fun a ↦ by simp [Action.Reaches]
  | capCore readings cpuId => exact hs.opens_capCore readings cpuId
  | setEpp cpuId eppValue => exact hs.opens_setEppIfChanged cpuId eppValue
  | relieveMemory pressure topConsumers =>
      cases hlevel : MemGuard.classify pressure with
      | healthy =>
          simp only [Action.run, evaluateMemoryPolicy, hlevel]
          exact (World.Opens.of_writes_eq rfl).congr fun a ↦ by simp [Action.Reaches, hlevel]
      | critical =>
          simp only [Action.run, evaluateMemoryPolicy, hlevel]
          refine World.Opens.congr (World.Opens.of_writes_eq ?_)
            fun a ↦ by simp [Action.Reaches, hlevel]
          cases topConsumers <;> rfl
      | rising =>
          simp only [Action.run, evaluateMemoryPolicy, hlevel]
          refine World.Opens.congr ((World.Opens.writeValue k .vfsCachePressure _ s.world).trans
            (World.Opens.writeValue k .dirtyRatio _ _) fun a ↦ ?_)
            fun a ↦ by simp [Action.Reaches, hlevel]
          exact World.isSome_writeValue_files k _ _ _ _
  | scheduleNvme deviceName sample =>
      simp only [Action.run, scheduleNvme]
      split
      · next hbusy =>
          exact (hs.opens_setSchedulerIfChanged deviceName mqDeadline).congr
            fun a ↦ by simp [Action.Reaches, hbusy]
      · next hcalm =>
          have hsome := (setSchedulerIfChanged_writes k deviceName noneScheduler s).isSome_eq
          refine ((hs.opens_setSchedulerIfChanged deviceName noneScheduler).trans
            (World.Opens.setNvmeLatencyTarget k deviceName _ _ _) hsome).congr fun a ↦ ?_
          simp only [Action.Reaches, hcalm, hsome, not_false_iff, true_and]

theorem Remembers.run (hs : s.Remembers) (action : Action) : (action.run k s).Remembers := by
  have kept := (hs.opens_run (k := k) action).kept
  cases action with
  | initializeCore cpuId => exact hs.initializeCore cpuId
  | initializeDevice deviceName kind =>
      cases kind with
      | nvme | hdd => exact hs.setSchedulerIfChanged deviceName _
      | ssdSata | unknown => exact hs
  | capCore readings cpuId => exact hs.capCore readings cpuId
  | setEpp cpuId eppValue => exact hs.setEppIfChanged cpuId eppValue
  | relieveMemory pressure topConsumers =>
      exact hs.mono (engine_evaluateMemoryPolicy k pressure topConsumers s) kept
  | scheduleNvme deviceName sample =>
      simp only [Action.run, scheduleNvme] at kept ⊢
      split at kept
      · next hbusy => simpa [hbusy] using hs.setSchedulerIfChanged deviceName mqDeadline
      · next hcalm =>
          rw [if_neg hcalm]
          refine (hs.setSchedulerIfChanged (k := k) deviceName noneScheduler).mono rfl ?_
          exact (World.Opens.setNvmeLatencyTarget k deviceName _ _ _).kept

/-! ## Lists of actions -/

end Session
end BetterCpu
