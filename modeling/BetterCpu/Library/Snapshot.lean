import Mathlib.Data.Option.Basic

/-!
# A tuner with a snapshot of its settings

A tuner saves its settings when it starts, changes them while it runs, and may
crash.  The snapshot is what it started from last, so it is the pristine one
as long as no start finds settings that a crashed run has left behind.
-/

namespace BetterCpu.Snapshot

variable {σ : Type*}

structure Tuner (σ : Type*) where
  settings : σ
  snapshot : Option σ
  running : Bool

/-- A start may tune at once, and a stop need not succeed in restoring. -/
inductive Step : Tuner σ → Tuner σ → Prop
  | idle (t : Tuner σ) : Step t t
  | start (t : Tuner σ) (settings : σ) (h : t.running = false) :
      Step t ⟨settings, some t.settings, true⟩
  | tune (t : Tuner σ) (settings : σ) (h : t.running = true) :
      Step t ⟨settings, t.snapshot, true⟩
  | stop (t : Tuner σ) (settings : σ) (h : t.running = true) :
      Step t ⟨settings, t.snapshot, false⟩
  | crash (t : Tuner σ) : Step t ⟨t.settings, t.snapshot, false⟩

/-- The snapshot is the pristine one whenever it is or may be needed. -/
def Recoverable (pristine : σ) (t : Tuner σ) : Prop :=
  t.running = true ∨ t.settings ≠ pristine → t.snapshot = some pristine

theorem Recoverable.step {pristine : σ} {t t' : Tuner σ} (h : Recoverable pristine t)
    (hstep : Step t t')
    (hstart : t.running = false → t'.running = true → t.settings = pristine) :
    Recoverable pristine t' := by
  cases hstep with
  | idle => exact h
  | start settings hidle =>
      intro _
      exact congrArg some (hstart hidle rfl)
  | tune settings hrunning =>
      intro _
      exact h (Or.inl hrunning)
  | stop settings hrunning =>
      intro _
      exact h (Or.inl hrunning)
  | crash =>
      rintro (hrunning | hsettings)
      · cases hrunning
      · exact h (Or.inr hsettings)

end BetterCpu.Snapshot
