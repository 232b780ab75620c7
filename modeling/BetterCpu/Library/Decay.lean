import Mathlib.Tactic

/-!
# Geometric decay with truncation

A number that loses one part in `p + 1` of itself at every step, rounded down.
The `n`-th iterate lies between the geometric sequence and the geometric
sequence plus the accumulated rounding, which stays below `p`.
-/

namespace BetterCpu.Decay

def decay (p x : ℕ) : ℕ :=
  x - x / (p + 1)

theorem mul_le_mul_decay (p x : ℕ) : p * x ≤ (p + 1) * decay p x := by
  have hdiv := Nat.mul_div_le x (p + 1)
  rw [decay, Nat.mul_sub, Nat.add_one_mul p x]
  omega

theorem mul_decay_le (p x : ℕ) : (p + 1) * decay p x ≤ p * x + p := by
  have hmod := Nat.div_add_mod x (p + 1)
  have hlt : x % (p + 1) < p + 1 := Nat.mod_lt x (Nat.succ_pos p)
  rw [decay, Nat.mul_sub, Nat.add_one_mul p x]
  omega

theorem pow_mul_le_iterate (p n x : ℕ) : p ^ n * x ≤ (p + 1) ^ n * (decay p)^[n] x := by
  induction n with
  | zero => simp
  | succ n ih =>
      rw [Function.iterate_succ_apply']
      calc
        p ^ (n + 1) * x = p * (p ^ n * x) := by ring
        _ ≤ p * ((p + 1) ^ n * (decay p)^[n] x) := Nat.mul_le_mul_left p ih
        _ = (p + 1) ^ n * (p * (decay p)^[n] x) := by ring
        _ ≤ (p + 1) ^ n * ((p + 1) * decay p ((decay p)^[n] x)) :=
          Nat.mul_le_mul_left _ (mul_le_mul_decay p _)
        _ = (p + 1) ^ (n + 1) * decay p ((decay p)^[n] x) := by ring

/-- The rounding of all steps together is at most `p (1 - (p / (p + 1)) ^ n)`. -/
theorem iterate_add_le (p n x : ℕ) :
    (p + 1) ^ n * (decay p)^[n] x + p * p ^ n ≤ p ^ n * x + p * (p + 1) ^ n := by
  induction n with
  | zero => simp
  | succ n ih =>
      rw [Function.iterate_succ_apply']
      calc
        (p + 1) ^ (n + 1) * decay p ((decay p)^[n] x) + p * p ^ (n + 1)
            = (p + 1) ^ n * ((p + 1) * decay p ((decay p)^[n] x)) + p * p ^ (n + 1) := by ring
        _ ≤ (p + 1) ^ n * (p * (decay p)^[n] x + p) + p * p ^ (n + 1) :=
          Nat.add_le_add_right (Nat.mul_le_mul_left _ (mul_decay_le p _)) _
        _ = p * ((p + 1) ^ n * (decay p)^[n] x + p * p ^ n) + p * (p + 1) ^ n := by ring
        _ ≤ p * (p ^ n * x + p * (p + 1) ^ n) + p * (p + 1) ^ n :=
          Nat.add_le_add_right (Nat.mul_le_mul_left p ih) _
        _ = p ^ (n + 1) * x + p * (p + 1) ^ (n + 1) := by ring

end BetterCpu.Decay
