import Mathlib.Tactic
import Mathlib.Data.List.TakeWhile

/-!
# Texts, words and decimals

Byte strings as lists of characters, the white space of the C locale, and the
decimal notation of natural numbers and integers.  A word is what an
extraction that stops at white space can return.
-/

namespace BetterCpu

abbrev Text := List Char

namespace Text

/-- `std::isspace` in the C locale: blank, and tab to carriage return. -/
def isSpace (c : Char) : Bool :=
  c = ' ' || (9 ≤ c.toNat && c.toNat ≤ 13)

def Spaceless (t : Text) : Prop :=
  ∀ c ∈ t, isSpace c = false

instance (t : Text) : Decidable (Spaceless t) :=
  List.decidableBAll _ t

def IsWord (t : Text) : Prop :=
  t ≠ [] ∧ Spaceless t

instance (t : Text) : Decidable (IsWord t) :=
  inferInstanceAs (Decidable (t ≠ [] ∧ Spaceless t))

/-- The text is empty or starts with white space, so that a word written
before it ends there. -/
def Delimited (t : Text) : Prop :=
  ∀ c ∈ t.head?, isSpace c = true

@[simp] theorem delimited_nil : Delimited [] := by simp [Delimited]

@[simp] theorem delimited_cons (c : Char) (t : Text) :
    Delimited (c :: t) ↔ isSpace c = true := by simp [Delimited]

@[simp] theorem spaceless_nil : Spaceless [] := by simp [Spaceless]

@[simp] theorem spaceless_cons (c : Char) (t : Text) :
    Spaceless (c :: t) ↔ isSpace c = false ∧ Spaceless t := by simp [Spaceless]

theorem Spaceless.isWord {t : Text} (h : Spaceless t) (hne : t ≠ []) : IsWord t :=
  ⟨hne, h⟩

/-! ## Cutting a text at white space -/

def takeWord (t : Text) : Text :=
  t.takeWhile fun c ↦ !isSpace c

def dropWord (t : Text) : Text :=
  t.dropWhile fun c ↦ !isSpace c

theorem spaceless_takeWord (t : Text) : Spaceless (takeWord t) := by
  intro c hc
  simpa using List.all_eq_true.mp List.all_takeWhile c hc

theorem takeWord_of_delimited {r : Text} (h : Delimited r) : takeWord r = [] := by
  cases r with
  | nil => rfl
  | cons c r => simp [takeWord, (delimited_cons c r).mp h]

theorem dropWord_of_delimited {r : Text} (h : Delimited r) : dropWord r = r := by
  cases r with
  | nil => rfl
  | cons c r => simp [dropWord, (delimited_cons c r).mp h]

theorem takeWord_append {w r : Text} (hw : Spaceless w) (hr : Delimited r) :
    takeWord (w ++ r) = w := by
  rw [takeWord, List.takeWhile_append_of_pos (by simpa [Spaceless] using hw)]
  simpa [takeWord] using takeWord_of_delimited hr

theorem dropWord_append {w r : Text} (hw : Spaceless w) (hr : Delimited r) :
    dropWord (w ++ r) = r := by
  rw [dropWord, List.dropWhile_append_of_pos (by simpa [Spaceless] using hw)]
  exact dropWord_of_delimited hr

/-- The words of a text, in order: what repeated extraction of a word yields. -/
def words : Text → List Text
  | [] => []
  | [c] => if isSpace c then [] else [[c]]
  | c :: d :: t =>
      if isSpace c then words (d :: t)
      else if isSpace d then [c] :: words (d :: t)
      else
        match words (d :: t) with
        | [] => [[c]]
        | w :: ws => (c :: w) :: ws

theorem words_cons_space {c : Char} (hc : isSpace c = true) (t : Text) :
    words (c :: t) = words t := by
  cases t <;> simp [words, hc]

theorem words_of_head {c : Char} (hc : isSpace c = false) (t : Text) :
    words (c :: t) = takeWord (c :: t) :: words (dropWord (c :: t)) := by
  induction t generalizing c with
  | nil => simp [words, takeWord, dropWord, hc]
  | cons d t ih =>
      cases hd : isSpace d with
      | true => simp [words, takeWord, dropWord, hc, hd]
      | false =>
          have htail := ih hd
          simp only [takeWord, dropWord] at htail
          simp [words, takeWord, dropWord, hc, hd, htail]

theorem words_append {w r : Text} (hw : IsWord w) (hr : Delimited r) :
    words (w ++ r) = w :: words r := by
  obtain ⟨c, t, rfl⟩ := List.exists_cons_of_ne_nil hw.1
  have hc : isSpace c = false := hw.2 c (by simp)
  rw [List.cons_append, words_of_head hc, ← List.cons_append, takeWord_append hw.2 hr,
    dropWord_append hw.2 hr]

theorem words_dropWhile_isSpace (t : Text) : words (t.dropWhile isSpace) = words t := by
  induction t with
  | nil => rfl
  | cons c t ih =>
      cases hc : isSpace c with
      | true => rw [List.dropWhile_cons_of_pos (by simpa using hc), ih, words_cons_space hc]
      | false => rw [List.dropWhile_cons_of_neg (by simp [hc])]

theorem isSpace_blank : isSpace ' ' = true := by decide

theorem isSpace_newline : isSpace '\n' = true := by decide

theorem delimited_flatMap_blank (fields : List Text) :
    Delimited (fields.flatMap fun field ↦ ' ' :: field) := by
  cases fields <;> simp [isSpace_blank]

/-- The words of fields that are written with a blank in front of each. -/
theorem words_append_fields {w : Text} {fields : List Text} (hw : IsWord w)
    (h : ∀ field ∈ fields, IsWord field) :
    words (w ++ fields.flatMap fun field ↦ ' ' :: field) = w :: fields := by
  induction fields generalizing w with
  | nil => simpa [words] using words_append hw delimited_nil
  | cons field fields ih =>
      rw [words_append hw (delimited_flatMap_blank _), List.flatMap_cons, List.cons_append,
        words_cons_space isSpace_blank, ih (h field List.mem_cons_self)
          fun f hf ↦ h f (List.mem_cons_of_mem _ hf)]

theorem Spaceless.notMem {t : Text} (h : Spaceless t) {c : Char} (hc : isSpace c = true) :
    c ∉ t := by
  intro hmem
  simp [h c hmem] at hc

theorem isWord_of_mem_words {t w : Text} (h : w ∈ words t) : IsWord w := by
  induction t using words.induct generalizing w with
  | case1 => simp [words] at h
  | case2 c hc => simp [words, hc] at h
  | case3 c hc => simp_all [words, IsWord]
  | case4 c d t hc ih => exact ih (by simpa [words, hc] using h)
  | case5 c d t hc hd ih =>
      simp only [words, hc, hd, Bool.false_eq_true, if_false, if_true, List.mem_cons] at h
      rcases h with rfl | h
      · simp [IsWord, hc]
      · exact ih h
  | case6 c d t hc hd hnil ih => simp_all [words, IsWord]
  | case7 c d t hc hd w' ws hws ih =>
      simp only [words, hc, hd, hws, Bool.false_eq_true, if_false, List.mem_cons] at h
      have hw' : IsWord w' := ih (by simp [hws])
      rcases h with rfl | h
      · exact ⟨by simp, by simpa [hc] using hw'.2⟩
      · exact ih (by simp [hws, h])

/-! ## Decimal notation -/

/-- `std::to_string` of an unsigned number. -/
def decimal (n : ℕ) : Text :=
  Nat.toDigits 10 n

def decimalInt (z : ℤ) : Text :=
  if z < 0 then '-' :: decimal z.natAbs else decimal z.natAbs

def ofDigits (ds : Text) : ℕ :=
  Nat.ofDigitChars 10 ds 0

theorem isSpace_of_isDigit {c : Char} (h : c.isDigit = true) : isSpace c = false := by
  simp only [Char.isDigit, Bool.and_eq_true, decide_eq_true_eq, ge_iff_le,
    UInt32.le_iff_toNat_le] at h
  have hlow : 48 ≤ c.toNat := h.1
  have hblank : c ≠ ' ' := by
    rintro rfl
    simp at hlow
  simp only [isSpace, hblank, decide_false, Bool.false_or, Bool.and_eq_false_iff,
    decide_eq_false_iff_not]
  omega

theorem isDigit_of_mem_decimal {n : ℕ} {c : Char} (h : c ∈ decimal n) :
    c.isDigit = true :=
  Nat.isDigit_of_mem_toDigits (by decide) (by decide) h

theorem decimal_ne_nil (n : ℕ) : decimal n ≠ [] :=
  Nat.toDigits_ne_nil

theorem notMem_decimal {c : Char} (hc : c.isDigit = false) (n : ℕ) : c ∉ decimal n := by
  intro hmem
  simp [isDigit_of_mem_decimal hmem] at hc

theorem spaceless_decimal (n : ℕ) : Spaceless (decimal n) :=
  fun _ hc ↦ isSpace_of_isDigit (isDigit_of_mem_decimal hc)

theorem isWord_decimal (n : ℕ) : IsWord (decimal n) :=
  ⟨decimal_ne_nil n, spaceless_decimal n⟩

@[simp] theorem ofDigits_decimal (n : ℕ) : ofDigits (decimal n) = n :=
  Nat.ofDigitChars_ten_toDigits

theorem ofDigits_append (xs ys : Text) :
    ofDigits (xs ++ ys) = 10 ^ ys.length * ofDigits xs + ofDigits ys := by
  rw [ofDigits, Nat.ofDigitChars_append, Nat.ofDigitChars_eq_ofDigitChars_zero]
  rfl

/-- The first digits of a number that has more of them are a smaller number. -/
theorem ofDigits_lt_of_isPrefix {n : ℕ} {ds : Text} (h : ds <+: decimal n) (hne : ds ≠ [])
    (hproper : ds ≠ decimal n) : ofDigits ds < n := by
  obtain ⟨rest, hrest⟩ := h
  have hpos : rest ≠ [] := by
    rintro rfl
    exact hproper (by simpa using hrest)
  have hn : ofDigits (ds ++ rest) = n := by rw [hrest, ofDigits_decimal]
  rw [ofDigits_append] at hn
  have hpow : 10 ^ 1 ≤ 10 ^ rest.length :=
    Nat.pow_le_pow_right (by decide) (List.length_pos_of_ne_nil hpos)
  have hmul : 10 ^ 1 * ofDigits ds ≤ 10 ^ rest.length * ofDigits ds := Nat.mul_le_mul_right _ hpow
  rcases Nat.eq_zero_or_pos n with rfl | hpositive
  · -- zero has one digit only
    have hlength := congrArg List.length hrest
    have hds := List.length_pos_of_ne_nil hne
    have hr := List.length_pos_of_ne_nil hpos
    have hzero : (decimal 0).length = 1 := by decide
    rw [List.length_append, hzero] at hlength
    omega
  · omega

theorem ofDigits_le_of_isPrefix {n : ℕ} {ds : Text} (h : ds <+: decimal n) : ofDigits ds ≤ n := by
  by_cases hnil : ds = []
  · simp [hnil, ofDigits]
  · by_cases hwhole : ds = decimal n
    · rw [hwhole, ofDigits_decimal]
    · exact (ofDigits_lt_of_isPrefix h hnil hwhole).le

theorem eq_decimal_of_isPrefix {n : ℕ} {ds : Text} (h : ds <+: decimal n) (hne : ds ≠ [])
    (hvalue : ofDigits ds = n) : ds = decimal n := by
  by_contra hproper
  exact (ofDigits_lt_of_isPrefix h hne hproper).ne hvalue

theorem notMem_decimalInt {c : Char} (hc : c.isDigit = false) (hminus : c ≠ '-') (z : ℤ) :
    c ∉ decimalInt z := by
  unfold decimalInt
  split
  · simpa [hminus] using notMem_decimal hc z.natAbs
  · exact notMem_decimal hc z.natAbs

theorem isWord_decimalInt (z : ℤ) : IsWord (decimalInt z) := by
  unfold decimalInt
  split
  · exact ⟨by simp, by simpa using ⟨by decide, spaceless_decimal _⟩⟩
  · exact isWord_decimal _

/-! ## The number scanner

`std::num_get` and `std::strtol` in base ten: an optional sign, then the
longest run of digits. -/

structure Scanned where
  negative : Bool
  digits : Text
  rest : Text

def scanDigits (negative : Bool) (t : Text) : Scanned :=
  ⟨negative, t.takeWhile Char.isDigit, t.dropWhile Char.isDigit⟩

def scanNumber : Text → Scanned
  | '-' :: t => scanDigits true t
  | '+' :: t => scanDigits false t
  | t => scanDigits false t

def Scanned.value (s : Scanned) : ℤ :=
  if s.negative then -(ofDigits s.digits : ℤ) else ofDigits s.digits

/-- No digit follows. -/
theorem Delimited.isDigit_head {r : Text} (h : Delimited r) :
    ∀ c ∈ r.head?, c.isDigit = false := by
  intro c hc
  by_contra hdigit
  have hspace := isSpace_of_isDigit (by simpa using hdigit)
  simp [h c hc] at hspace

theorem scanDigits_append {b : Bool} {ds r : Text} (hds : ∀ c ∈ ds, c.isDigit = true)
    (hr : ∀ c ∈ r.head?, c.isDigit = false) : scanDigits b (ds ++ r) = ⟨b, ds, r⟩ := by
  have htake : r.takeWhile Char.isDigit = [] := by
    cases r with
    | nil => rfl
    | cons c r => simp [hr c rfl]
  have hdrop : r.dropWhile Char.isDigit = r := by
    have hsplit := List.takeWhile_append_dropWhile (p := Char.isDigit) (l := r)
    rwa [htake, List.nil_append] at hsplit
  simp only [scanDigits, List.takeWhile_append_of_pos hds, List.dropWhile_append_of_pos hds,
    htake, hdrop, List.append_nil]

theorem scanNumber_decimal (n : ℕ) {r : Text} (hr : ∀ c ∈ r.head?, c.isDigit = false) :
    scanNumber (decimal n ++ r) = ⟨false, decimal n, r⟩ := by
  have hscan : scanDigits false (decimal n ++ r) = ⟨false, decimal n, r⟩ :=
    scanDigits_append (fun c hc ↦ isDigit_of_mem_decimal hc) hr
  obtain ⟨c, ds, hds⟩ := List.exists_cons_of_ne_nil (decimal_ne_nil n)
  have hc : c.isDigit = true := isDigit_of_mem_decimal (n := n) (by simp [hds])
  have hminus : c ≠ '-' := by rintro rfl; simp at hc
  have hplus : c ≠ '+' := by rintro rfl; simp at hc
  rw [← hscan, hds]
  simp [scanNumber, hminus, hplus]

theorem scanNumber_decimalInt (z : ℤ) {r : Text} (hr : Delimited r) :
    scanNumber (decimalInt z ++ r) = ⟨decide (z < 0), decimal z.natAbs, r⟩ := by
  by_cases hz : z < 0
  · simp only [decimalInt, scanNumber, hz, decide_true]
    exact scanDigits_append (fun c hc ↦ isDigit_of_mem_decimal hc) hr.isDigit_head
  · simpa [decimalInt, hz] using scanNumber_decimal z.natAbs hr.isDigit_head

theorem digits_scanNumber_decimalInt (z : ℤ) {r : Text} (hr : Delimited r) :
    (scanNumber (decimalInt z ++ r)).digits ≠ [] := by
  rw [scanNumber_decimalInt z hr]
  exact decimal_ne_nil _

theorem value_scanNumber_decimalInt (z : ℤ) {r : Text} (hr : Delimited r) :
    (scanNumber (decimalInt z ++ r)).value = z := by
  rw [scanNumber_decimalInt z hr]
  by_cases hz : z < 0
  · simp only [Scanned.value, hz, decide_true, if_true, ofDigits_decimal]
    omega
  · simp only [Scanned.value, hz, decide_false, Bool.false_eq_true, if_false, ofDigits_decimal]
    omega

end Text
end BetterCpu
