import BetterCpu.Library.InputStream
import Mathlib.Algebra.Order.Field.Rat

/-!
# Reading a floating point number

`std::stod` in the C locale: decimal and hexadecimal numerals with an optional
exponent, infinities and NaNs.  The value of a numeral is computed exactly.
Rounding is a parameter: it gives the `double` for the exact value, or nothing
when the value is out of range.
-/

namespace BetterCpu

open Text

/-- A `double`, without the sign of zero. -/
inductive Double where
  | finite (value : ℚ)
  | infinite (negative : Bool)
  | nan
  deriving DecidableEq

abbrev Rounding := ℚ → Option ℚ

/-- Every rational is a `double` of its own. -/
def Rounding.exact : Rounding := some

namespace Double

/-- `bound < d`; every comparison with a NaN is false. -/
def above (bound : ℚ) : Double → Bool
  | finite value => bound < value
  | infinite negative => !negative
  | nan => false

/-- `bound <= d`. -/
def atLeast (bound : ℚ) : Double → Bool
  | finite value => bound ≤ value
  | infinite negative => !negative
  | nan => false

end Double

namespace Text

def toLower (c : Char) : Char :=
  if 65 ≤ c.toNat ∧ c.toNat ≤ 90 then Char.ofNat (c.toNat + 32) else c

/-- A notation for mantissas with the exponents that belong to it. -/
structure Radix where
  base : ℕ
  isDigit : Char → Bool
  marker : Char
  exponentBase : ℕ

def hexDigit (c : Char) : Bool :=
  c.isDigit || (97 ≤ (toLower c).toNat && (toLower c).toNat ≤ 102)

def digitValue (c : Char) : ℕ :=
  if c.isDigit then c.toNat - 48 else (toLower c).toNat - 87

def Radix.decimal : Radix := ⟨10, Char.isDigit, 'e', 10⟩
def Radix.hexadecimal : Radix := ⟨16, hexDigit, 'p', 2⟩

namespace Radix

variable (r : Radix)

def ofDigits (ds : Text) : ℕ :=
  ds.foldl (fun n c ↦ r.base * n + digitValue c) 0

/-- The digits around an optional point and what follows them. -/
def scanDigits (t : Text) : Text × Text × Text :=
  match t.dropWhile r.isDigit with
  | '.' :: u => (t.takeWhile r.isDigit, u.takeWhile r.isDigit, u.dropWhile r.isDigit)
  | u => (t.takeWhile r.isDigit, [], u)

/-- The exponent counts only if there are digits behind its marker. -/
def scanExponent (t : Text) : ℤ :=
  match t with
  | [] => 0
  | c :: t => if toLower c = r.marker then (scanNumber t).value else 0

def scanValue (t : Text) : Option ℚ :=
  let (whole, fraction, rest) := r.scanDigits t
  if whole = [] ∧ fraction = [] then none
  else some (r.ofDigits (whole ++ fraction) / r.base ^ fraction.length *
    (r.exponentBase : ℚ) ^ r.scanExponent rest)

end Radix

/-- Without digits behind it, the `x` of a hexadecimal numeral is not part of
any, and what is in front of it is the decimal zero. -/
def scanMagnitude (t : Text) : Option ℚ :=
  match t with
  | '0' :: x :: u =>
      if toLower x = 'x' then
        (Radix.hexadecimal.scanValue u).or (Radix.decimal.scanValue t)
      else Radix.decimal.scanValue t
  | _ => Radix.decimal.scanValue t

def scanSigned (negative : Bool) (t : Text) : Option Double :=
  if ['i', 'n', 'f'].isPrefixOf (t.map toLower) then some (.infinite negative)
  else if ['n', 'a', 'n'].isPrefixOf (t.map toLower) then some .nan
  else (scanMagnitude t).map fun value ↦ .finite (if negative then -value else value)

/-- The longest numeral in front of a text, if there is any. -/
def scanDouble : Text → Option Double
  | '-' :: t => scanSigned true t
  | '+' :: t => scanSigned false t
  | t => scanSigned false t

end Text

def stod (round : Rounding) (t : Text) : Except StdException Double :=
  match scanDouble (t.dropWhile isSpace) with
  | none => .error .invalidArgument
  | some (.finite value) =>
      match round value with
      | none => .error .outOfRange
      | some rounded => .ok (.finite rounded)
  | some d => .ok d

/-- The text starts with a numeral, and its value is in range. -/
def IsNumeral (round : Rounding) (t : Text) : Prop :=
  ∃ d, scanDouble (t.dropWhile isSpace) = some d ∧
    ∀ value, d = .finite value → round value ≠ none

theorem stod_returns_iff {round : Rounding} {t : Text} :
    (∃ d, stod round t = .ok d) ↔ IsNumeral round t := by
  unfold stod IsNumeral
  cases scanDouble (t.dropWhile isSpace) with
  | none => simp
  | some d =>
      cases d with
      | finite value => cases hround : round value <;> simp [hround]
      | infinite negative => simp
      | nan => simp

/-! ## Decimals with two digits behind the point -/

namespace Text

/-- A number of hundredths as a decimal. -/
def hundredths (n : ℕ) : Text :=
  Text.decimal (n / 100) ++ '.' :: (Text.decimal (n % 100 / 10) ++ Text.decimal (n % 10))

/-- The characters of decimals are their own lower case, and no letters. -/
def Plain (c : Char) : Prop :=
  c.isDigit = true ∨ c = '.'

theorem Plain.toNat_lt {c : Char} (h : Plain c) : c.toNat < 58 := by
  rcases h with hdigit | rfl
  · simp only [Char.isDigit, Bool.and_eq_true, decide_eq_true_eq, UInt32.le_iff_toNat_le] at hdigit
    exact Nat.lt_succ_of_le hdigit.2
  · decide

theorem Plain.toLower {c : Char} (h : Plain c) : toLower c = c := by
  have hlt := h.toNat_lt
  rw [Text.toLower, if_neg (by omega)]

theorem plain_of_mem_hundredths {n : ℕ} {c : Char} (h : c ∈ hundredths n) : Plain c := by
  simp only [hundredths, List.mem_append, List.mem_cons] at h
  rcases h with h | h | h | h
  · exact Or.inl (isDigit_of_mem_decimal h)
  · exact Or.inr h
  · exact Or.inl (isDigit_of_mem_decimal h)
  · exact Or.inl (isDigit_of_mem_decimal h)

theorem scanMagnitude_of_plain {t : Text} (h : ∀ c ∈ t, Plain c) :
    scanMagnitude t = Radix.decimal.scanValue t := by
  unfold scanMagnitude
  split
  · next x u =>
      have hx : Plain x := h x (by simp)
      have hne : toLower x ≠ 'x' := by
        have hlt := hx.toNat_lt
        rw [hx.toLower]
        rintro rfl
        exact absurd hlt (by decide)
      rw [if_neg hne]
  · rfl

theorem scanDouble_of_plain {c : Char} {t : Text} (hc : c.isDigit = true)
    (h : ∀ d ∈ c :: t, Plain d) :
    scanDouble ((c :: t).dropWhile isSpace) =
      (Radix.decimal.scanValue (c :: t)).map Double.finite := by
  have hlower : (c :: t).map toLower = c :: t :=
    (List.map_congr_left fun d hd ↦ (h d hd).toLower).trans (List.map_id _)
  have hne {d : Char} (hd : d.isDigit = false) : c ≠ d := by
    rintro rfl
    simp [hc] at hd
  have hscan : scanDouble (c :: t) = scanSigned false (c :: t) := by
    unfold scanDouble
    split
    · next heq => exact absurd (List.cons.inj heq).1 (hne (by decide))
    · next heq => exact absurd (List.cons.inj heq).1 (hne (by decide))
    · rfl
  have hinf : ['i', 'n', 'f'].isPrefixOf (c :: t) = false := by
    simp [List.isPrefixOf, (hne (d := 'i') (by decide)).symm]
  have hnan : ['n', 'a', 'n'].isPrefixOf (c :: t) = false := by
    simp [List.isPrefixOf, (hne (d := 'n') (by decide)).symm]
  rw [List.dropWhile_cons_of_neg (by simp [isSpace_of_isDigit hc]), hscan, scanSigned, hlower, hinf,
    hnan, scanMagnitude_of_plain h]
  rfl

theorem ofDigits_decimalRadix {ds : Text} (h : ∀ c ∈ ds, c.isDigit = true) :
    Radix.decimal.ofDigits ds = ofDigits ds := by
  have hfold (n : ℕ) : ds.foldl (fun n c ↦ Radix.decimal.base * n + digitValue c) n =
      Nat.ofDigitChars 10 ds n := by
    induction ds generalizing n with
    | nil => rfl
    | cons c ds ih =>
        have hvalue : digitValue c = c.toNat - '0'.toNat := if_pos (h c List.mem_cons_self)
        rw [List.foldl_cons, ih fun d hd ↦ h d (List.mem_cons_of_mem _ hd), hvalue]
        rfl
  exact hfold 0

theorem length_decimal_of_lt {n : ℕ} (h : n < 10) : (Text.decimal n).length = 1 := by
  revert n
  decide

/-- The digits around the point of a decimal. -/
theorem scanValue_decimal {whole fraction : Text} (hwhole : ∀ c ∈ whole, c.isDigit = true)
    (hne : whole ≠ []) (hfraction : ∀ c ∈ fraction, c.isDigit = true) :
    Radix.decimal.scanValue (whole ++ '.' :: fraction) =
      some ((ofDigits (whole ++ fraction) : ℚ) / 10 ^ fraction.length) := by
  have htake : (whole ++ '.' :: fraction).takeWhile Char.isDigit = whole := by
    rw [List.takeWhile_append_of_pos hwhole]
    simp
  have hdrop : (whole ++ '.' :: fraction).dropWhile Char.isDigit = '.' :: fraction := by
    rw [List.dropWhile_append_of_pos hwhole]
    simp
  have hscan : Radix.decimal.scanDigits (whole ++ '.' :: fraction) = (whole, fraction, []) := by
    unfold Radix.scanDigits
    simp only [Radix.decimal, htake, hdrop, List.takeWhile_eq_self_iff.mpr hfraction,
      List.dropWhile_eq_nil_iff.mpr hfraction]
  have hdigits : ∀ c ∈ whole ++ fraction, c.isDigit = true := by
    intro c hc
    exact (List.mem_append.mp hc).elim (hwhole c) (hfraction c)
  simp only [Radix.scanValue, hscan, hne, false_and, if_false, ofDigits_decimalRadix hdigits,
    Radix.scanExponent, zpow_zero, mul_one]
  rfl

/-- A decimal is read back as the number of its hundredths. -/
theorem stod_hundredths (n : ℕ) : stod .exact (hundredths n) = .ok (.finite ((n : ℚ) / 100)) := by
  obtain ⟨c, t, ht⟩ := List.exists_cons_of_ne_nil (decimal_ne_nil (n / 100))
  have hc : c.isDigit = true := isDigit_of_mem_decimal (n := n / 100) (by simp [ht])
  have hplain : ∀ d ∈ hundredths n, Plain d := fun d hd ↦ plain_of_mem_hundredths hd
  have htext : hundredths n =
      c :: (t ++ '.' :: (Text.decimal (n % 100 / 10) ++ Text.decimal (n % 10))) := by
    rw [hundredths, ht, List.cons_append]
  have hfraction :
      ∀ d ∈ Text.decimal (n % 100 / 10) ++ Text.decimal (n % 10), d.isDigit = true := by
    intro d hd
    exact (List.mem_append.mp hd).elim isDigit_of_mem_decimal isDigit_of_mem_decimal
  have hlength : (Text.decimal (n % 10)).length = 1 := length_decimal_of_lt (by omega)
  have hlength' : (Text.decimal (n % 100 / 10)).length = 1 := length_decimal_of_lt (by omega)
  have hvalue : ofDigits (Text.decimal (n / 100) ++
      (Text.decimal (n % 100 / 10) ++ Text.decimal (n % 10))) = n := by
    simp only [ofDigits_append, ofDigits_decimal, List.length_append, hlength, hlength']
    omega
  have hscan := scanDouble_of_plain hc (htext ▸ hplain)
  rw [← htext, hundredths, scanValue_decimal (fun d hd ↦ isDigit_of_mem_decimal hd)
    (decimal_ne_nil _) hfraction, hvalue, List.length_append, hlength, hlength'] at hscan
  unfold stod
  rw [hundredths, hscan]
  norm_num [Rounding.exact]

end Text
end BetterCpu
