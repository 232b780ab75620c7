import BetterCpu.Library.Run

/-!
# Control loops

A control loop moves one value: once at the start, and then with every input.
A system is a product of loops when each of its values follows a loop of its
own, whatever the others do.
-/

namespace BetterCpu

structure ControlLoop (ι ρ : Type*) where
  initial : ρ → ρ
  next : ι → ρ → ρ

namespace ControlLoop

variable {ι ρ ν : Type*} {loop : ControlLoop ι ρ}

/-- The value after the start and some inputs. -/
def after (loop : ControlLoop ι ρ) (inputs : List ι) (r : ρ) : ρ :=
  Run.exec loop.next inputs (loop.initial r)

/-- A loop that does nothing. -/
def still : ControlLoop ι ρ := ⟨id, fun _ ↦ id⟩

@[simp] theorem after_still (inputs : List ι) (r : ρ) : still.after inputs r = r := by
  unfold after
  induction inputs with
  | nil => rfl
  | cons input inputs ih => exact ih

/-- Loops that move alike have the same values. -/
theorem after_congr {loop' : ControlLoop ι ρ} {inputs inputs' : List ι}
    (hinitial : loop.initial = loop'.initial)
    (hnext : List.Forall₂ (fun input input' ↦ loop.next input = loop'.next input') inputs inputs')
    (r : ρ) : loop.after inputs r = loop'.after inputs' r := by
  rw [after, after, hinitial]
  generalize loop'.initial r = r
  induction hnext generalizing r with
  | nil => rfl
  | cons hfirst _ ih => rw [Run.exec_cons, Run.exec_cons, hfirst, ih]

/-- A loop that follows requests has the value of the last one. -/
theorem after_of_requests {start : Option ν} {request : ι → Option ν} {value : ν → ρ}
    (hinitial : ∀ r, loop.initial r = start.elim r value)
    (hnext : ∀ input r, loop.next input r = (request input).elim r value) (inputs : List ι)
    (r : ρ) :
    loop.after inputs r =
      Run.exec (fun v _ ↦ value v) (start.toList ++ inputs.filterMap request) r := by
  have hstart : loop.initial r = Run.exec (fun v _ ↦ value v) start.toList r := by
    rw [hinitial]
    cases start <;> rfl
  rw [after, hstart, Run.exec_append]
  generalize Run.exec (fun v _ ↦ value v) start.toList r = r
  induction inputs generalizing r with
  | nil => rfl
  | cons input inputs ih =>
      rw [Run.exec_cons, ih, hnext, List.filterMap_cons]
      cases request input <;> rfl

/-- A loop that makes one move at some of the inputs. -/
def counting (p : ι → Bool) (f : ρ → ρ) : ControlLoop ι ρ :=
  ⟨id, fun input r ↦ if p input then f r else r⟩

theorem after_counting (p : ι → Bool) (f : ρ → ρ) (inputs : List ι) (r : ρ) :
    (counting p f).after inputs r = f^[inputs.countP p] r :=
  Run.exec_counting p f inputs r

end ControlLoop
end BetterCpu
