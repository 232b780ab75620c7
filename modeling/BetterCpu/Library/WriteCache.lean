import Mathlib.Logic.Function.Basic

/-!
# A cache in front of a setter

A setter that is skipped when the cache already has the value, and whose
success is recorded in the cache.  The world, the keys and the values are
arbitrary; `holds key value w` says that the attribute of `key` has `value`.
-/

namespace BetterCpu

variable {κ ν ω : Type*} [DecidableEq κ] [DecidableEq ν]

def setAndRecord (set : κ → ν → ω → Bool × ω) (cache : κ → Option ν)
    (key : κ) (value : ν) (w : ω) : (κ → Option ν) × ω :=
  let (ok, w) := set key value w
  (if ok then Function.update cache key (some value) else cache, w)

/-- Nothing is written when the cache already has the value. -/
def setIfChanged (set : κ → ν → ω → Bool × ω) (cache : κ → Option ν)
    (key : κ) (value : ν) (w : ω) : (κ → Option ν) × ω :=
  if cache key = some value then (cache, w) else setAndRecord set cache key value w

namespace WriteCache

def Coherent (holds : κ → ν → ω → Prop) (cache : κ → Option ν) (w : ω) : Prop :=
  ∀ key value, cache key = some value → holds key value w

omit [DecidableEq κ] [DecidableEq ν] in
theorem coherent_congr {holds : κ → ν → ω → Prop} {cache : κ → Option ν} {w w' : ω}
    (hw : ∀ key value, holds key value w' ↔ holds key value w) :
    Coherent holds cache w' ↔ Coherent holds cache w := by
  simp only [Coherent, hw]

/-- A setter changes no attribute but its own, and none when it returns false. -/
structure LocalSetter (set : κ → ν → ω → Bool × ω) (holds : κ → ν → ω → Prop) : Prop where
  other : ∀ key value w other v, other ≠ key →
    (holds other v (set key value w).2 ↔ holds other v w)
  refused : ∀ key value w v, (set key value w).1 = false →
    (holds key v (set key value w).2 ↔ holds key v w)

variable {set : κ → ν → ω → Bool × ω} {holds : κ → ν → ω → Prop} {cache : κ → Option ν}

omit [DecidableEq ν] in
/-- A recorded write keeps coherence if and only if it returns false or really
leaves the attribute with the value. -/
theorem coherent_setAndRecord_iff (hset : LocalSetter set holds) {w : ω}
    (hcache : Coherent holds cache w) (key : κ) (value : ν) :
    Coherent holds (setAndRecord set cache key value w).1
        (setAndRecord set cache key value w).2 ↔
      ((set key value w).1 = true → holds key value (set key value w).2) := by
  simp only [setAndRecord]
  cases hok : (set key value w).1 with
  | false =>
      simp only [Bool.false_eq_true, if_false, false_imp_iff, iff_true]
      refine (coherent_congr fun other v ↦ ?_).mpr hcache
      by_cases hother : other = key
      · subst hother
        exact hset.refused _ _ _ _ hok
      · exact hset.other _ _ _ _ _ hother
  | true =>
      simp only [if_true, true_imp_iff]
      constructor
      · intro h
        exact h key value (Function.update_self _ _ _)
      · intro h other v hentry
        by_cases hother : other = key
        · subst hother
          rw [Function.update_self, Option.some.injEq] at hentry
          rwa [← hentry]
        · rw [Function.update_of_ne hother] at hentry
          exact (hset.other _ _ _ _ _ hother).mpr (hcache other v hentry)

theorem coherent_setIfChanged_iff (hset : LocalSetter set holds) {w : ω}
    (hcache : Coherent holds cache w) (key : κ) (value : ν) :
    Coherent holds (setIfChanged set cache key value w).1
        (setIfChanged set cache key value w).2 ↔
      (cache key ≠ some value → (set key value w).1 = true →
        holds key value (set key value w).2) := by
  by_cases hskip : cache key = some value
  · simp [setIfChanged, hskip, hcache]
  · simp only [setIfChanged, ne_eq, hskip, not_false_iff, true_imp_iff]
    exact coherent_setAndRecord_iff hset hcache key value

/-- A request through a coherent cache leaves the contents that a plain one
leaves, if setting what an attribute has already leaves the contents alone. -/
theorem contents_setIfChanged {γ : Type*} (contents : ω → γ) {u w : ω} (key : κ) (value : ν)
    (hcongr : contents (set key value u).2 = contents (set key value w).2)
    (hkeep : holds key value u → contents (set key value u).2 = contents u)
    (hcache : Coherent holds cache u) :
    contents (setIfChanged set cache key value u).2 = contents (set key value w).2 := by
  by_cases hskip : cache key = some value
  · rw [← hcongr, hkeep (hcache key value hskip)]
    simp [setIfChanged, hskip]
  · simpa [setIfChanged, setAndRecord, hskip] using hcongr

end WriteCache
end BetterCpu
