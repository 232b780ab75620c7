import BetterCpu.Library.Run
import Mathlib.Data.List.Destutter

/-!
# Requests through a cache

A client asks for values one after the other.  What equals the value that was
passed on last is dropped, so the values that are passed on are the requests
without repetitions in succession.
-/

namespace BetterCpu.Requests

variable {ν : Type*} [DecidableEq ν]

/-- One request: the value passed on last, and the values passed on. -/
def remember (value : ν) (s : Option ν × List ν) : Option ν × List ν :=
  if s.1 = some value then s else (some value, s.2 ++ [value])

theorem remember_remember (value : ν) (s : Option ν × List ν) :
    remember value (remember value s) = remember value s := by
  by_cases h : s.1 = some value <;> simp [remember, h]

theorem exec_remember_some (values : List ν) (last : ν) (done : List ν) :
    (Run.exec remember values (some last, done ++ [last])).2 =
      done ++ values.destutter' (· ≠ ·) last := by
  induction values generalizing last done with
  | nil => rfl
  | cons value values ih =>
      rw [Run.exec_cons]
      by_cases h : last = value
      · subst h
        have hskip : remember last (some last, done ++ [last]) = (some last, done ++ [last]) :=
          if_pos rfl
        rw [hskip, ih, List.destutter'_cons_neg _ (by simp)]
      · have hpass : remember value (some last, done ++ [last]) =
            (some value, done ++ [last] ++ [value]) := if_neg (by simpa using h)
        rw [hpass, ih, List.destutter'_cons_pos _ h, List.append_assoc, List.singleton_append]

/-- What is passed on are the requests without repetitions in succession. -/
theorem exec_remember (values : List ν) (done : List ν) :
    (Run.exec remember values (none, done)).2 = done ++ values.destutter (· ≠ ·) := by
  cases values with
  | nil => simp
  | cons value values =>
      have hpass : remember value (none, done) = (some value, done ++ [value]) :=
        if_neg (by simp)
      rw [Run.exec_cons, hpass, exec_remember_some, List.destutter_cons']

end BetterCpu.Requests
