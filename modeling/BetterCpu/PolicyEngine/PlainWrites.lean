import BetterCpu.PolicyEngine.Cache

/-!
# The setters with a cache and plain writes

The same requests are issued once through the setters with a cache and once as
unconditional writes, with one answer of the kernel for each request.  The
attributes have the same values after every request, since a request that the
cache skips is one whose plain write, accepted or not, changes no value.
-/

namespace BetterCpu

open Text WriteCache

inductive Request where
  | governor (cpuId : Int32) (governorName : Text)
  | epp (cpuId eppValue : Int32)
  | scheduler (deviceName schedulerName : Text)

/-- A request, and what the kernel answers to it when it comes to a write. -/
structure Attempt where
  request : Request
  answer : Answer

namespace Request

def attr : Request → Attr
  | governor cpuId _ => .scalingGovernor cpuId
  | epp cpuId _ => .energyPerformancePreference cpuId
  | scheduler deviceName _ => .queueScheduler deviceName

def text : Request → Text
  | governor _ governorName => governorName
  | epp _ eppValue => decimalInt eppValue.toInt
  | scheduler _ schedulerName => schedulerName

/-- The attribute holds the requested value. -/
def Holds : Request → World → Prop
  | governor cpuId governorName => governorHolds cpuId governorName
  | epp cpuId eppValue => eppHolds cpuId eppValue
  | scheduler deviceName schedulerName => schedulerHolds deviceName schedulerName

theorem holds_congr {u w : World} (h : u.files.value = w.files.value) (request : Request) :
    request.Holds u ↔ request.Holds w := by
  cases request with
  | governor cpuId governorName =>
      simp only [Holds, governorHolds, Sysfs.currentGovernor_congr (congrFun h _)]
  | epp cpuId eppValue => simp only [Holds, eppHolds, Sysfs.currentEpp_congr (congrFun h _)]
  | scheduler deviceName schedulerName =>
      simp only [Holds, schedulerHolds, Sysfs.currentScheduler_congr (congrFun h _)]

/-- The value that a held request has already is the one that a write of it
would give, unless there is nothing to write or nowhere to write it. -/
theorem Holds.idle {request : Request} {w : World} (h : request.Holds w) :
    (w.files request.attr).isSome = true → request.text ≠ [] →
      w.files.Holds request.attr request.text := by
  cases request with
  | governor cpuId governorName =>
      obtain rfl : Governor.currentGovernor w.files cpuId = governorName := h
      exact holds_governor
  | epp cpuId eppValue => exact fun _ _ ↦ holds_epp_iff.mpr h
  | scheduler deviceName schedulerName =>
      obtain rfl : IoStorage.currentScheduler w.files deviceName = schedulerName := h
      exact fun hpresent _ ↦ holds_scheduler hpresent

end Request

namespace Attempt

def kernel (attempt : Attempt) : Kernel := fun _ _ _ _ ↦ attempt.answer

/-- The request as an unconditional write. -/
def plain (attempt : Attempt) (w : World) : Bool × World :=
  match attempt.request with
  | .governor cpuId governorName => Governor.setGovernor attempt.kernel cpuId governorName w
  | .epp cpuId eppValue => Governor.setEpp attempt.kernel cpuId eppValue w
  | .scheduler deviceName schedulerName =>
      IoStorage.setScheduler attempt.kernel deviceName schedulerName w

def write (attempt : Attempt) (w : World) : World := (attempt.plain w).2

/-- The request through the setter with its cache. -/
def ifChanged (attempt : Attempt) (s : Session) : Session :=
  match attempt.request with
  | .governor cpuId governorName => s.setGovernorIfChanged attempt.kernel cpuId governorName
  | .epp cpuId eppValue => s.setEppIfChanged attempt.kernel cpuId eppValue
  | .scheduler deviceName schedulerName =>
      s.setSchedulerIfChanged attempt.kernel deviceName schedulerName

/-- The setter returns true only if the attribute then holds the value.  That
it changes no file when it returns false is `World.writeValue_files_of_false`. -/
def Honest (attempt : Attempt) (w : World) : Prop :=
  (attempt.plain w).1 = true → attempt.request.Holds (attempt.plain w).2

theorem plain_eq (attempt : Attempt) (w : World) :
    attempt.plain w = w.writeValue attempt.kernel attempt.request.attr attempt.request.text := by
  obtain ⟨request, answer⟩ := attempt
  cases request <;> rfl

/-! ## Values before and after a plain write -/

theorem isSome_congr {u w : World} (h : u.files.value = w.files.value) (a : Attr) :
    (u.files a).isSome = (w.files a).isSome := by
  simpa [Sysfs.value] using congrArg Option.isSome (congrFun h a)

theorem answer_congr {u w : World} (h : u.files.value = w.files.value) (attempt : Attempt)
    (a : Attr) (value : Text) :
    u.answer attempt.kernel a value = w.answer attempt.kernel a value := by
  simp only [World.answer, isSome_congr h, kernel]

theorem plain_congr {u w : World} (h : u.files.value = w.files.value) (attempt : Attempt) :
    (attempt.plain u).1 = (attempt.plain w).1 ∧
      (attempt.plain u).2.files.value = (attempt.plain w).2.files.value := by
  simp only [plain_eq, World.writeValue, answer_congr h attempt, true_and]
  funext b
  by_cases hb : b = attempt.request.attr
  · subst hb
    simp only [Sysfs.value, World.flush]
    split
    · simp
    · exact congrFun h _
  · simpa only [Sysfs.value, World.flush_files_of_ne _ _ hb] using congrFun h b

theorem plain_of_holds {attempt : Attempt} {w : World} (h : attempt.request.Holds w) :
    (attempt.plain w).2.files.value = w.files.value := by
  rw [plain_eq]
  rcases w.writeValue_files_cases attempt.kernel attempt.request.attr attempt.request.text with
    hfiles | ⟨hvalue, hpresent, hfiles⟩
  · rw [hfiles]
  · funext b
    by_cases hb : b = attempt.request.attr
    · subst hb
      rw [h.idle hpresent hvalue, hfiles]
      simp [Sysfs.value]
    · exact World.value_writeValue_of_ne attempt.kernel _ w hb

/-! ## One request -/

variable {attempt : Attempt} {s : Session}

theorem value_ifChanged (hs : s.Coherent) {w : World} (h : s.world.files.value = w.files.value) :
    (attempt.ifChanged s).world.files.value = (attempt.write w).files.value := by
  have hcongr := (plain_congr h attempt).2
  have hkeep : attempt.request.Holds s.world →
      (attempt.plain s.world).2.files.value = s.world.files.value := plain_of_holds
  obtain ⟨request, answer⟩ := attempt
  cases request with
  | governor cpuId governorName =>
      exact contents_setIfChanged (fun w : World ↦ w.files.value) cpuId governorName
        hcongr hkeep hs.governors
  | epp cpuId eppValue =>
      exact contents_setIfChanged (fun w : World ↦ w.files.value) cpuId eppValue
        hcongr hkeep hs.epp
  | scheduler deviceName schedulerName =>
      exact contents_setIfChanged (fun w : World ↦ w.files.value) deviceName
        schedulerName hcongr hkeep hs.schedulers

theorem Honest.congr {w : World} (h : s.world.files.value = w.files.value)
    (hhonest : attempt.Honest w) : attempt.Honest s.world := by
  obtain ⟨hok, hvalue⟩ := plain_congr h attempt
  intro htrue
  exact (Request.holds_congr hvalue _).mpr (hhonest (hok ▸ htrue))

theorem coherent_ifChanged (hs : s.Coherent) (hhonest : attempt.Honest s.world) :
    (attempt.ifChanged s).Coherent := by
  obtain ⟨request, answer⟩ := attempt
  cases request with
  | governor cpuId governorName =>
      exact (Session.coherent_setGovernorIfChanged hs cpuId governorName).mpr fun _ ↦ hhonest
  | epp cpuId eppValue =>
      exact (Session.coherent_setEppIfChanged hs cpuId eppValue).mpr fun _ ↦ hhonest
  | scheduler deviceName schedulerName =>
      exact (Session.coherent_setSchedulerIfChanged hs deviceName schedulerName).mpr
        fun _ ↦ hhonest

/-! ## All requests -/

/-- The cached run simulates the plain one from any state in which they agree. -/
theorem simulation {attempts : List Attempt} {w : World} (hs : s.Coherent)
    (h : s.world.files.value = w.files.value)
    (hhonest : Run.Guarded Attempt.write Attempt.Honest attempts w) :
    (Run.exec Attempt.ifChanged attempts s).world.files.value =
        (Run.exec Attempt.write attempts w).files.value ∧
      (Run.exec Attempt.ifChanged attempts s).Coherent := by
  induction attempts generalizing s w with
  | nil => exact ⟨h, hs⟩
  | cons attempt attempts ih =>
      obtain ⟨hfirst, hrest⟩ := hhonest
      exact ih (coherent_ifChanged hs (hfirst.congr h)) (value_ifChanged hs h) hrest

/-- From empty caches and any contents, issuing the requests through the caches
leaves every attribute with the value that the plain writes leave it with, and
every cache entry is what its attribute holds. -/
theorem ifChanged_refines_plain (cores : List CpuCoreInfo) (attempts : List Attempt) (w : World)
    (hhonest : Run.Guarded Attempt.write Attempt.Honest attempts w) :
    let s := Run.exec Attempt.ifChanged attempts ⟨PolicyEngine.new cores, w⟩
    (∀ a, s.world.files.value a = (Run.exec Attempt.write attempts w).files.value a) ∧
      s.Coherent := by
  intro s
  obtain ⟨hvalue, hcoherent⟩ := simulation (Session.coherent_new cores w) rfl hhonest
  exact ⟨congrFun hvalue, hcoherent⟩

def sampleAttempts : List Attempt :=
  [⟨.governor 0 schedutil, .refusedAtOpen⟩, ⟨.governor 0 schedutil, .accepted⟩,
    ⟨.epp 0 200, .accepted⟩, ⟨.governor 0 schedutil, .refusedAtOpen⟩,
    ⟨.scheduler ['s', 'd', 'a'] mqDeadline, .accepted⟩, ⟨.epp 1 200, .accepted⟩]

theorem ifChanged_refines_plain_sample :
    let s := Run.exec Attempt.ifChanged sampleAttempts
      ⟨PolicyEngine.new [Session.sampleCore], ⟨Session.sampleFiles, [], []⟩⟩
    (∀ a, s.world.files.value a =
        (Run.exec Attempt.write sampleAttempts ⟨Session.sampleFiles, [], []⟩).files.value a) ∧
      s.Coherent :=
  ifChanged_refines_plain [Session.sampleCore] sampleAttempts ⟨Session.sampleFiles, [], []⟩ (by
    simp only [sampleAttempts, Run.Guarded, Honest, Request.Holds, governorHolds, eppHolds,
      schedulerHolds]
    decide +kernel)

end Attempt
end BetterCpu
