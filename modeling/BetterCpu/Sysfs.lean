import BetterCpu.Library.InputStream
import Mathlib.Logic.Function.Basic

/-!
# The attribute files of the kernel

Everything the daemon tunes is a file under `/sys` or `/proc/sys`: it shows a
text, and the kernel accepts or refuses what is written to it.  The kernel is
a parameter of the whole development.  Its answer to a write may depend on the
number of writes before it, on every attribute and on the value.
-/

namespace BetterCpu

open Text

inductive Attr where
  | scalingGovernor (cpu : Int32)
  | scalingMinFreq (cpu : Int32)
  | scalingMaxFreq (cpu : Int32)
  | energyPerformancePreference (cpu : Int32)
  | swappiness
  | vfsCachePressure
  | dirtyRatio
  | dirtyBackgroundRatio
  | queueScheduler (device : Text)
  | readLatNsec (device : Text)
  | writeLatNsec (device : Text)
  deriving DecidableEq

/-- The text each attribute shows; `none` when the file cannot be opened. -/
abbrev Sysfs := Attr → Option Text

/-- What becomes of a write.  A refusal at close is one that the kernel makes
when the buffer of the stream is flushed, after `good()` has been called. -/
inductive Answer where
  | refusedAtOpen
  | refusedAtClose
  | accepted
  deriving DecidableEq, Repr

abbrev Kernel := ℕ → Sysfs → Attr → Text → Answer

def Kernel.willing : Kernel := fun _ _ _ _ ↦ .accepted

/-- What an attribute shows after the kernel accepted `value`.  A scheduler
file marks the active scheduler with brackets; the inactive ones, which are
never read, are left out. -/
def Attr.shown : Attr → Text → Text
  | .queueScheduler _, value => '[' :: (value ++ [']', '\n'])
  | _, value => value ++ ['\n']

structure WriteEvent where
  attr : Attr
  value : Text
  answer : Answer
  deriving DecidableEq

/-- The machine as the daemon acts on it: the attribute files, the writes so
far, and the processes that were sent `SIGTERM`. -/
structure World where
  files : Sysfs
  writes : List WriteEvent
  signals : List Int32

namespace World

/-- Whether opening the attribute for writing succeeds, and what the kernel
then says.  An attribute that is not there cannot be created by opening it. -/
def answer (k : Kernel) (w : World) (a : Attr) (value : Text) : Answer :=
  if (w.files a).isSome then k w.writes.length w.files a value else .refusedAtOpen

/-- The effect of closing a stream with `value` in its buffer.  An empty
buffer makes no system call. -/
def flush (w : World) (a : Attr) (value : Text) (answer : Answer) : World where
  files := if answer = .accepted ∧ value ≠ [] then
      Function.update w.files a (some (a.shown value)) else w.files
  writes := w.writes ++ [⟨a, value, answer⟩]
  signals := w.signals

/-- `write_value`, and the bodies of the setters of the sysctls and of the
schedulers: open, insert, return `good()`.  A value shorter than the buffer is
still in it when `good()` is read. -/
def writeValue (k : Kernel) (a : Attr) (value : Text) (w : World) : Bool × World :=
  let answer := w.answer k a value
  (answer != .refusedAtOpen, w.flush a value answer)

def kill (pid : Int32) (w : World) : World :=
  { w with signals := w.signals ++ [pid] }

theorem flush_files_of_ne {w : World} {a b : Attr} (value : Text) (ans : Answer) (h : b ≠ a) :
    (w.flush a value ans).files b = w.files b := by
  unfold flush
  split <;> simp [Function.update_of_ne h]

theorem flush_files_self {w : World} {a : Attr} {value : Text} (hv : value ≠ []) :
    (w.flush a value .accepted).files a = some (a.shown value) := by
  simp [flush, hv]

theorem flush_files_of_not_accepted {w : World} {a : Attr} {value : Text} {ans : Answer}
    (h : ans ≠ .accepted) : (w.flush a value ans).files = w.files := by
  simp [flush, h]

theorem isSome_writeValue_files (k : Kernel) (a b : Attr) (value : Text) (w : World) :
    ((w.writeValue k a value).2.files b).isSome = (w.files b).isSome := by
  by_cases hb : b = a
  · subst hb
    cases hfile : w.files b with
    | none => simp [writeValue, answer, hfile, flush]
    | some t =>
        simp only [writeValue, flush]
        split <;> simp [hfile]
  · simp [writeValue, flush_files_of_ne _ _ hb]

theorem writeValue_files_of_ne (k : Kernel) {a b : Attr} (value : Text) (w : World)
    (h : b ≠ a) : (w.writeValue k a value).2.files b = w.files b :=
  flush_files_of_ne _ _ h

theorem writeValue_files_cases (k : Kernel) (a : Attr) (value : Text) (w : World) :
    (w.writeValue k a value).2.files = w.files ∨
      value ≠ [] ∧ (w.files a).isSome = true ∧
        (w.writeValue k a value).2.files =
          Function.update w.files a (some (a.shown value)) := by
  by_cases h : w.answer k a value = .accepted ∧ value ≠ []
  · refine Or.inr ⟨h.2, ?_, by simp [writeValue, flush, h]⟩
    by_contra habsent
    simp [answer, habsent] at h
  · exact Or.inl (by simp [writeValue, flush, h])

end World
end BetterCpu
