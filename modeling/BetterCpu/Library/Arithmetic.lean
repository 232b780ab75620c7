import Mathlib.Algebra.Order.Field.Rat
import Mathlib.Data.Int.Log
import Mathlib.Data.Rat.Floor
import Mathlib.Tactic.Linarith
import Mathlib.Tactic.Ring

/-!
# Rounding to binary digits

The arithmetic of `double`s as far as it stays within the range of their
exponents: the result of an operation is the nearest number with 53 binary
digits, and of two the one whose last digit is even.
-/

namespace BetterCpu

/-- What an operation makes of its exact result. -/
abbrev Arithmetic := ℚ → ℚ

def Arithmetic.exact : Arithmetic := id

/-- The nearest integer, and of two the even one. -/
def roundEven (x : ℚ) : ℤ :=
  let low := ⌊x⌋
  if x - low < 1 / 2 then low
  else if 1 / 2 < x - low then low + 1
  else if low % 2 = 0 then low
  else low + 1

/-- The unit of the last of 53 binary digits. -/
def lastPlace (x : ℚ) : ℚ :=
  2 ^ (Int.log 2 |x| - 52)

/-- Rounding to nearest with ties to even. -/
def Arithmetic.double : Arithmetic :=
  fun x ↦ roundEven (x / lastPlace x) * lastPlace x

theorem roundEven_intCast (n : ℤ) : roundEven n = n := by
  simp [roundEven]

theorem abs_roundEven_sub_le (x : ℚ) : |(roundEven x : ℚ) - x| ≤ 1 / 2 := by
  have hle := Int.floor_le x
  have hlt := Int.lt_floor_add_one x
  unfold roundEven
  dsimp only
  split_ifs <;> push_cast <;> rw [abs_le] <;> constructor <;> linarith

theorem lastPlace_pos (x : ℚ) : 0 < lastPlace x :=
  zpow_pos two_pos _

theorem lastPlace_le {x : ℚ} (hx : x ≠ 0) : lastPlace x ≤ |x| / 2 ^ 52 := by
  have hlog := Int.zpow_log_le_self (R := ℚ) one_lt_two (abs_pos.mpr hx)
  rw [lastPlace, zpow_sub₀ two_ne_zero]
  exact div_le_div_of_nonneg_right (by exact_mod_cast hlog) (by positivity)

theorem double_zero : Arithmetic.double 0 = 0 := by
  simp [Arithmetic.double, roundEven]

/-- The relative error is at most half a unit of the last place. -/
theorem abs_double_sub_le (x : ℚ) : |Arithmetic.double x - x| ≤ |x| / 2 ^ 53 := by
  rcases eq_or_ne x 0 with rfl | hx
  · simp [double_zero]
  have hpos := lastPlace_pos x
  have hround := abs_roundEven_sub_le (x / lastPlace x)
  have hscale : Arithmetic.double x - x =
      (roundEven (x / lastPlace x) - x / lastPlace x) * lastPlace x := by
    rw [Arithmetic.double, sub_mul, div_mul_cancel₀ _ hpos.ne']
  calc |Arithmetic.double x - x|
      = |roundEven (x / lastPlace x) - x / lastPlace x| * lastPlace x := by
        rw [hscale, abs_mul, abs_of_pos hpos]
    _ ≤ 1 / 2 * (|x| / 2 ^ 52) :=
        mul_le_mul hround (lastPlace_le hx) hpos.le (by norm_num)
    _ = |x| / 2 ^ 53 := by ring

theorem double_le {x : ℚ} (hx : 0 ≤ x) : Arithmetic.double x ≤ x * (1 + 1 / 2 ^ 53) := by
  have h := (abs_le.mp (abs_double_sub_le x)).2
  rw [abs_of_nonneg hx] at h
  linarith

theorem le_double {x : ℚ} (hx : 0 ≤ x) : x * (1 - 1 / 2 ^ 53) ≤ Arithmetic.double x := by
  have h := (abs_le.mp (abs_double_sub_le x)).1
  rw [abs_of_nonneg hx] at h
  linarith

theorem double_nonneg {x : ℚ} (hx : 0 ≤ x) : 0 ≤ Arithmetic.double x :=
  (mul_nonneg hx (by norm_num)).trans (le_double hx)

/-- A quotient that is clearly below a threshold is so in `double`s. -/
theorem double_div_lt_double {x d t : ℚ} (hx : 0 ≤ x) (hd : 0 < d) (ht : t ≤ 1)
    (hgap : x / d + 1 / 2 ^ 51 ≤ t) :
    Arithmetic.double (Arithmetic.double x / d) < Arithmetic.double t := by
  have hquotient : 0 ≤ x / d := div_nonneg hx hd.le
  calc Arithmetic.double (Arithmetic.double x / d)
      ≤ Arithmetic.double x / d * (1 + 1 / 2 ^ 53) :=
        double_le (div_nonneg (double_nonneg hx) hd.le)
    _ ≤ x * (1 + 1 / 2 ^ 53) / d * (1 + 1 / 2 ^ 53) := by
        gcongr
        exact double_le hx
    _ = x / d * (1 + 1 / 2 ^ 53) ^ 2 := by ring
    _ < t * (1 - 1 / 2 ^ 53) := by nlinarith
    _ ≤ Arithmetic.double t := le_double (by linarith)

theorem double_lt_double_div {x d t : ℚ} (hd : 0 < d) (ht : 0 ≤ t) (ht' : t ≤ 1)
    (hgap : t + 1 / 2 ^ 51 ≤ x / d) :
    Arithmetic.double t < Arithmetic.double (Arithmetic.double x / d) := by
  have hquotient : 0 < x / d := by linarith
  have hx : 0 ≤ x := ((div_pos_iff_of_pos_right hd).mp hquotient).le
  calc Arithmetic.double t
      ≤ t * (1 + 1 / 2 ^ 53) := double_le ht
    _ < x / d * (1 - 1 / 2 ^ 53) ^ 2 := by nlinarith
    _ = x * (1 - 1 / 2 ^ 53) / d * (1 - 1 / 2 ^ 53) := by ring
    _ ≤ Arithmetic.double x / d * (1 - 1 / 2 ^ 53) := by
        have := le_double hx
        gcongr
    _ ≤ Arithmetic.double (Arithmetic.double x / d) :=
        le_double (div_nonneg (double_nonneg hx) hd.le)

/-- Small numbers are their own `double`s. -/
theorem double_natCast {n : ℕ} (h : n < 2 ^ 53) : Arithmetic.double n = n := by
  have hlog : Int.log 2 |(n : ℚ)| ≤ 52 := by
    rw [Nat.abs_cast, Int.log_natCast]
    have hlt : Nat.log 2 n < 53 := by
      rcases Nat.eq_zero_or_pos n with rfl | hn
      · simp
      · exact (Nat.log_lt_iff_lt_pow one_lt_two hn.ne').mpr h
    omega
  obtain ⟨k, hk⟩ := Int.le.dest hlog
  have hplace : lastPlace n = (2 ^ k)⁻¹ := by
    rw [lastPlace, ← hk, ← zpow_natCast, ← zpow_neg]
    congr 1
    omega
  have hquotient : (n : ℚ) / lastPlace n = ((n * 2 ^ k : ℕ) : ℤ) := by
    rw [hplace, div_inv_eq_mul]
    push_cast
    rfl
  rw [Arithmetic.double, hquotient, roundEven_intCast, ← hquotient,
    div_mul_cancel₀ _ (lastPlace_pos _).ne']

end BetterCpu
