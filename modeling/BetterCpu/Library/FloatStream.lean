import BetterCpu.Library.Floating

/-!
# Extracting a floating point number from a stream

`std::istream >> double`.  The characters that may stand in a decimal numeral
are accumulated one by one, and the conversion has to use up what has been
accumulated.  Neither infinities nor NaNs nor hexadecimal numerals can be
extracted.
-/

namespace BetterCpu

open Text

namespace Text

/-- The characters that are accumulated behind the sign, and what follows them.
`justSci` holds behind the marker of the exponent, where a sign may stand. -/
def scanFloat (foundDec foundSci foundMantissa justSci : Bool) : Text → Text × Text
  | [] => ([], [])
  | c :: t =>
      let go (foundDec foundSci foundMantissa justSci : Bool) : Text × Text :=
        let (accumulated, rest) := scanFloat foundDec foundSci foundMantissa justSci t
        (c :: accumulated, rest)
      if justSci && (c == '+' || c == '-') then go foundDec foundSci foundMantissa false
      else if c.isDigit then go foundDec foundSci true false
      else if c == '.' && !foundDec && !foundSci then go true foundSci foundMantissa false
      else if (c == 'e' || c == 'E') && !foundSci && foundMantissa then
        go foundDec true foundMantissa true
      else ([], c :: t)

/-- The conversion uses up everything: it does not end within an exponent. -/
def usedUp (accumulated : Text) : Bool :=
  accumulated.getLast?.all fun c ↦ c.isDigit || c == '.'

end Text

/-- The largest finite `double`, `DBL_MAX`. -/
def largestDouble : ℚ := ((2 ^ 53 - 1) * 2 ^ 971 : ℕ)

namespace IStream

/-- The conversion of what has been accumulated: without a numeral zero is stored,
and the largest number if it is out of range. -/
def storeFloat (round : Rounding) (negative : Bool) (accumulated rest : Text) : ℚ × IStream :=
  match if usedUp accumulated then Radix.decimal.scanValue accumulated else none with
  | none => (0, ⟨rest, true⟩)
  | some value =>
      match round (if negative then -value else value) with
      | none => (if negative then -largestDouble else largestDouble, ⟨rest, true⟩)
      | some value => (value, ⟨rest, false⟩)

/-- `in >> double`. -/
def float (round : Rounding) (old : ℚ) (s : IStream) : ℚ × IStream :=
  match s.sentry with
  | none => (old, s.fail)
  | some t =>
      let negative := t.head? == some '-'
      let unsigned := if negative || t.head? == some '+' then t.tail else t
      let scanned := scanFloat false false false false unsigned
      storeFloat round negative scanned.1 scanned.2

end IStream

namespace Text

/-! ## Decimals with two digits behind the point -/

theorem scanFloat_digits (foundDec foundSci foundMantissa : Bool) {ds r : Text}
    (hds : ∀ c ∈ ds, c.isDigit = true) (hne : ds ≠ []) :
    scanFloat foundDec foundSci foundMantissa false (ds ++ r) =
      (ds ++ (scanFloat foundDec foundSci true false r).1,
        (scanFloat foundDec foundSci true false r).2) := by
  induction ds generalizing foundMantissa with
  | nil => exact absurd rfl hne
  | cons c ds ih =>
      have hc : c.isDigit = true := hds c List.mem_cons_self
      rw [List.cons_append, scanFloat]
      simp only [hc, Bool.false_and, Bool.false_eq_true, if_false, if_true]
      cases ds with
      | nil => rfl
      | cons d ds =>
          rw [ih true (fun c h ↦ hds c (List.mem_cons_of_mem _ h)) (List.cons_ne_nil d ds)]
          rfl

theorem scanFloat_of_delimited {foundDec foundSci foundMantissa : Bool} {r : Text}
    (hr : Delimited r) : scanFloat foundDec foundSci foundMantissa false r = ([], r) := by
  cases r with
  | nil => rfl
  | cons c r =>
      have hc : isSpace c = true := (delimited_cons c r).mp hr
      have hdigit : c.isDigit = false := by
        by_contra h
        rw [isSpace_of_isDigit (by simpa using h)] at hc
        cases hc
      have hne : c ≠ '.' ∧ c ≠ 'e' ∧ c ≠ 'E' := by
        refine ⟨?_, ?_, ?_⟩ <;> rintro rfl <;> revert hc <;> decide
      simp [scanFloat, hdigit, hne]

/-- The digits around the point of a decimal. -/
theorem scanFloat_decimal {whole fraction r : Text} (hwhole : ∀ c ∈ whole, c.isDigit = true)
    (hne : whole ≠ []) (hfraction : ∀ c ∈ fraction, c.isDigit = true) (hne' : fraction ≠ [])
    (hr : Delimited r) :
    scanFloat false false false false (whole ++ '.' :: (fraction ++ r)) =
      (whole ++ '.' :: fraction, r) := by
  have hdigits : scanFloat true false true false (fraction ++ r) = (fraction, r) := by
    rw [scanFloat_digits _ _ _ hfraction hne', scanFloat_of_delimited hr, List.append_nil]
  have hpoint : scanFloat false false true false ('.' :: (fraction ++ r)) =
      ('.' :: fraction, r) := by
    have hnot : Char.isDigit '.' = false := by decide
    simp [scanFloat, hnot, hdigits]
  rw [scanFloat_digits _ _ _ hwhole hne, hpoint]

theorem scanFloat_hundredths (n : ℕ) {r : Text} (hr : Delimited r) :
    scanFloat false false false false (hundredths n ++ r) = (hundredths n, r) := by
  have hfraction :
      ∀ c ∈ Text.decimal (n % 100 / 10) ++ Text.decimal (n % 10), c.isDigit = true := by
    intro c hc
    exact (List.mem_append.mp hc).elim isDigit_of_mem_decimal isDigit_of_mem_decimal
  rw [hundredths, List.append_assoc, List.cons_append]
  exact scanFloat_decimal (fun c hc ↦ isDigit_of_mem_decimal hc) (decimal_ne_nil _) hfraction
    (by simp [decimal_ne_nil]) hr

/-- The first character of a number of hundredths. -/
theorem exists_hundredths_eq_cons (n : ℕ) :
    ∃ c t, hundredths n = c :: t ∧ c.isDigit = true := by
  obtain ⟨c, t, ht⟩ := List.exists_cons_of_ne_nil (decimal_ne_nil (n / 100))
  have hc : c.isDigit = true := isDigit_of_mem_decimal (n := n / 100) (by simp [ht])
  rw [hundredths, ht]
  exact ⟨c, _, rfl, hc⟩

theorem scanValue_hundredths (n : ℕ) :
    Radix.decimal.scanValue (hundredths n) = some ((n : ℚ) / 100) := by
  obtain ⟨c, t, ht, hc⟩ := exists_hundredths_eq_cons n
  have hplain : ∀ d ∈ hundredths n, Plain d := fun d hd ↦ plain_of_mem_hundredths hd
  have hscan := scanDouble_of_plain hc (ht ▸ hplain)
  rw [← ht] at hscan
  have hvalue := stod_hundredths n
  unfold stod at hvalue
  rw [hscan] at hvalue
  cases h : Radix.decimal.scanValue (hundredths n) with
  | none => simp [h] at hvalue
  | some value => simpa [h, Rounding.exact] using hvalue

theorem isWord_hundredths (n : ℕ) : IsWord (hundredths n) := by
  obtain ⟨c, t, ht, -⟩ := exists_hundredths_eq_cons n
  refine ⟨by rw [ht]; exact List.cons_ne_nil c t, fun d hd ↦ ?_⟩
  rcases plain_of_mem_hundredths hd with hdigit | rfl
  · exact isSpace_of_isDigit hdigit
  · decide

theorem usedUp_hundredths (n : ℕ) : usedUp (hundredths n) = true := by
  rw [usedUp, Option.all_eq_true]
  intro c hc
  have hplain : c.isDigit = true ∨ c = '.' :=
    plain_of_mem_hundredths (List.mem_of_getLast? hc)
  simpa using hplain

end Text

namespace IStream

theorem storeFloat_hundredths (n : ℕ) (rest : Text) :
    storeFloat .exact false (hundredths n) rest = ((n : ℚ) / 100, ⟨rest, false⟩) := by
  rw [storeFloat, if_pos (usedUp_hundredths n), scanValue_hundredths]
  rfl

/-- A number of hundredths is extracted with all its digits. -/
theorem float_of_hundredths (ws : Text) {r : Text} (old : ℚ) (n : ℕ)
    (hws : ∀ c ∈ ws, isSpace c = true) (hr : Delimited r) :
    float .exact old ⟨ws ++ (hundredths n ++ r), false⟩ = ((n : ℚ) / 100, ⟨r, false⟩) := by
  obtain ⟨c, t, ht, hc⟩ := exists_hundredths_eq_cons n
  have hhead : (hundredths n ++ r).head? = some c := by rw [ht, List.cons_append, List.head?_cons]
  have hminus : (some c == some '-') = false := by
    rw [Option.some_beq_some, beq_eq_false_iff_ne]
    rintro rfl
    cases hc
  have hplus : (some c == some '+') = false := by
    rw [Option.some_beq_some, beq_eq_false_iff_ne]
    rintro rfl
    cases hc
  rw [float, sentry_of_word hws (isWord_hundredths n)]
  simp only [hhead, hminus, hplus, Bool.or_self, Bool.false_eq_true, if_false,
    scanFloat_hundredths n hr, storeFloat_hundredths]

end IStream
end BetterCpu
