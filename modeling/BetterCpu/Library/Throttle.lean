import BetterCpu.Library.Run
import Mathlib.Order.Interval.Set.Defs
import Mathlib.Order.Lattice
import Mathlib.Tactic

/-!
# A cap with hysteresis

A controller that lowers a cap while it is hot, holds it while it is warm and
lifts it to the top once it is cool, over any linear order.  A move of the cap
may fail, which leaves it where it is.
-/

namespace BetterCpu.Throttle

inductive Heat where
  | cool
  | warm
  | hot
  deriving DecidableEq, Repr

/-- The order of the heats. -/
def Heat.rank : Heat → ℕ
  | .cool => 0
  | .warm => 1
  | .hot => 2

variable {α : Type*} [LinearOrder α]

/-- The next cap: `lower` bounded by the floor, the cap itself, or the top. -/
def step (lower : α → α) (floor top : α) : Heat → α → α
  | .hot, cap => max (lower cap) floor
  | .warm, cap => cap
  | .cool, _ => top

/-- What a succession of moves under one heat can do to the cap. -/
def Follows (top : α) : Heat → α → α → Prop
  | .hot, cap, cap' => cap' ≤ cap
  | .warm, cap, cap' => cap' = cap
  | .cool, cap, cap' => cap' = cap ∨ cap' = top

theorem Follows.refl (top : α) (heat : Heat) (cap : α) : Follows top heat cap cap := by
  cases heat <;> simp [Follows]

theorem Follows.trans {top a b c : α} {heat : Heat} (h₁ : Follows top heat a b)
    (h₂ : Follows top heat b c) : Follows top heat a c := by
  cases heat with
  | cool =>
      rcases h₂ with rfl | rfl
      · exact h₁
      · exact Or.inr rfl
  | warm => exact Eq.trans h₂ h₁
  | hot => exact le_trans h₂ h₁

variable {lower : α → α} {floor top cap : α} {heat : Heat}

theorem step_mem_Icc (hlower : ∀ a, lower a ≤ a) (hcap : cap ∈ Set.Icc floor top) :
    step lower floor top heat cap ∈ Set.Icc floor top := by
  obtain ⟨hfloor, htop⟩ := hcap
  cases heat with
  | cool => exact ⟨hfloor.trans htop, le_rfl⟩
  | warm => exact ⟨hfloor, htop⟩
  | hot => exact ⟨le_max_right _ _, max_le ((hlower cap).trans htop) (hfloor.trans htop)⟩

theorem step_follows (hlower : ∀ a, lower a ≤ a) (hfloor : floor ≤ cap) :
    Follows top heat cap (step lower floor top heat cap) := by
  cases heat with
  | cool => exact Or.inr rfl
  | warm => rfl
  | hot => exact max_le (hlower cap) hfloor

/-- While it stays hot, the floor may as well be applied once at the end. -/
theorem hot_iterate (hmono : Monotone lower) (hlower : ∀ a, lower a ≤ a) (hcap : floor ≤ cap)
    (n : ℕ) : (step lower floor top .hot)^[n] cap = max (lower^[n] cap) floor := by
  induction n with
  | zero => exact (max_eq_left hcap).symm
  | succ n ih =>
      rw [Function.iterate_succ_apply', Function.iterate_succ_apply', ih]
      calc
        step lower floor top .hot (max (lower^[n] cap) floor)
            = max (max (lower (lower^[n] cap)) (lower floor)) floor := by
              rw [step, hmono.map_max]
        _ = max (lower (lower^[n] cap)) floor := by
              rw [max_assoc, max_eq_right (hlower floor)]

/-- The hot steps behind the last cool one, if there were `n` of them before. -/
def hotSinceCool (n : ℕ) (heats : List Heat) : ℕ :=
  Run.exec (fun heat n ↦
    match heat with
    | .cool => 0
    | .warm => n
    | .hot => n + 1) heats n

/-- From the top, the cap remembers nothing but the number of hot steps behind the
last cool one. -/
theorem exec_step_eq_iterate (heats : List Heat) (n : ℕ) :
    Run.exec (step lower floor top) heats ((step lower floor top .hot)^[n] top) =
      (step lower floor top .hot)^[hotSinceCool n heats] top := by
  induction heats generalizing n with
  | nil => rfl
  | cons heat heats ih =>
      rw [Run.exec_cons]
      cases heat with
      | cool => exact ih 0
      | warm => exact ih n
      | hot =>
          rw [← Function.iterate_succ_apply' (step lower floor top .hot) n top]
          exact ih (n + 1)

/-- A hotter step from a cap that is no higher leads to one that is no higher. -/
theorem step_mono (hmono : Monotone lower) (hlower : ∀ a, lower a ≤ a) {heat' : Heat} {cap' : α}
    (hcap : cap ∈ Set.Icc floor top) (hcap' : cap' ∈ Set.Icc floor top)
    (hheat : heat.rank ≤ heat'.rank) (hle : cap' ≤ cap) :
    step lower floor top heat' cap' ≤ step lower floor top heat cap := by
  cases heat with
  | cool => exact (step_mem_Icc hlower hcap').2
  | warm =>
      cases heat' with
      | cool => simp [Heat.rank] at hheat
      | warm => exact hle
      | hot => exact max_le ((hlower cap').trans hle) hcap.1
  | hot =>
      cases heat' with
      | cool => simp [Heat.rank] at hheat
      | warm => simp [Heat.rank] at hheat
      | hot => exact max_le_max (hmono hle) le_rfl

theorem Follows.hot_of_lt {cap' : α} (h : Follows top heat cap cap') (htop : cap ≤ top)
    (hlt : cap' < cap) : heat = .hot := by
  cases heat with
  | cool => rcases h with rfl | rfl <;> order
  | warm => exact absurd h hlt.ne
  | hot => rfl

theorem Follows.cool_of_gt {cap' : α} (h : Follows top heat cap cap') (hgt : cap < cap') :
    heat = .cool ∧ cap' = top := by
  cases heat with
  | cool =>
      rcases h with rfl | rfl
      · exact absurd hgt (lt_irrefl _)
      · exact ⟨rfl, rfl⟩
  | warm => exact absurd h hgt.ne'
  | hot => exact absurd h (not_le.mpr hgt)

end BetterCpu.Throttle
