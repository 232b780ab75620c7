import BetterCpu.Library.Text

/-!
# Formatted extraction from an input stream

`std::istream` with the extraction operators for words, `int` and
`uint64_t`.  Every extractor takes the value that the target holds before and
returns the one it holds afterwards: a failed sentry leaves the target alone,
a failed conversion assigns to it.
-/

namespace BetterCpu

open Text

structure IStream where
  rest : Text
  failed : Bool

inductive StdException where
  | invalidArgument
  | outOfRange
  deriving DecidableEq, Repr

theorem bind_eq_ok_iff {ε α β : Type} {x : Except ε α} {f : α → Except ε β} {b : β} :
    (x >>= f) = .ok b ↔ ∃ a, x = .ok a ∧ f a = .ok b := by
  cases x with
  | error e => simp [bind, Except.bind]
  | ok a => simp [bind, Except.bind]

/-- A computation returns if and only if both of its parts do. -/
theorem bind_returns_iff {ε α β : Type} {x : Except ε α} {f : α → Except ε β} :
    (∃ b, (x >>= f) = .ok b) ↔ ∃ a, x = .ok a ∧ ∃ b, f a = .ok b := by
  simp only [bind_eq_ok_iff]
  constructor
  · rintro ⟨b, a, ha, hb⟩
    exact ⟨a, ha, b, hb⟩
  · rintro ⟨a, ha, b, hb⟩
    exact ⟨b, a, ha, hb⟩

namespace IStream

def ofText (t : Text) : IStream := ⟨t, false⟩

/-- The sentry of a formatted extraction: white space is skipped, and there is
no extraction from a failed stream or at the end of the text. -/
def sentry (s : IStream) : Option Text :=
  if s.failed then none
  else
    match s.rest.dropWhile isSpace with
    | [] => none
    | c :: t => some (c :: t)

def fail (s : IStream) : IStream := { s with failed := true }

def word (old : Text) (s : IStream) : Text × IStream :=
  match s.sentry with
  | none => (old, s.fail)
  | some t => (takeWord t, ⟨dropWord t, false⟩)

/-- `in >> uint64_t`: no digits store zero, an overflow stores the maximum,
and a minus sign negates modulo `2 ^ 64`. -/
def uint64 (old : UInt64) (s : IStream) : UInt64 × IStream :=
  match s.sentry with
  | none => (old, s.fail)
  | some t =>
      let n := scanNumber t
      if n.digits = [] then (0, ⟨n.rest, true⟩)
      else if ofDigits n.digits < 2 ^ 64 then
        let v := UInt64.ofNat (ofDigits n.digits)
        (if n.negative then -v else v, ⟨n.rest, false⟩)
      else (UInt64.ofNat (2 ^ 64 - 1), ⟨n.rest, true⟩)

/-- `in >> uint32_t`, as `uint64` with the narrower type. -/
def uint32 (old : UInt32) (s : IStream) : UInt32 × IStream :=
  match s.sentry with
  | none => (old, s.fail)
  | some t =>
      let n := scanNumber t
      if n.digits = [] then (0, ⟨n.rest, true⟩)
      else if ofDigits n.digits < 2 ^ 32 then
        let v := UInt32.ofNat (ofDigits n.digits)
        (if n.negative then -v else v, ⟨n.rest, false⟩)
      else (UInt32.ofNat (2 ^ 32 - 1), ⟨n.rest, true⟩)

/-- `in >> int`: an out of range number stores the nearest bound. -/
def int32 (old : Int32) (s : IStream) : Int32 × IStream :=
  match s.sentry with
  | none => (old, s.fail)
  | some t =>
      let n := scanNumber t
      if n.digits = [] then (0, ⟨n.rest, true⟩)
      else if n.value < -2 ^ 31 then (Int32.minValue, ⟨n.rest, true⟩)
      else if 2 ^ 31 ≤ n.value then (Int32.maxValue, ⟨n.rest, true⟩)
      else (Int32.ofInt n.value, ⟨n.rest, false⟩)

/-- `in >> int64_t`, as `int32` with the bounds of the wider type. -/
def int64 (old : Int64) (s : IStream) : Int64 × IStream :=
  match s.sentry with
  | none => (old, s.fail)
  | some t =>
      let n := scanNumber t
      if n.digits = [] then (0, ⟨n.rest, true⟩)
      else if n.value < -2 ^ 63 then (Int64.minValue, ⟨n.rest, true⟩)
      else if 2 ^ 63 ≤ n.value then (Int64.maxValue, ⟨n.rest, true⟩)
      else (Int64.ofInt n.value, ⟨n.rest, false⟩)

def ignore (s : IStream) : IStream :=
  if s.failed then s else { s with rest := s.rest.tail }

/-! ## What the target holds after an extraction -/

theorem int64_of_sentry_eq_none {s : IStream} (h : s.sentry = none) (old : Int64) :
    (s.int64 old).1 = old := by
  simp [int64, h]

/-- Behind a sentry that succeeds, the old value is gone. -/
theorem int64_of_sentry_ne_none {s : IStream} (h : s.sentry ≠ none) (old old' : Int64) :
    (s.int64 old).1 = (s.int64 old').1 := by
  obtain ⟨t, ht⟩ := Option.ne_none_iff_exists'.mp h
  simp only [int64, ht]

/-! ## Words and numbers that were written with white space around them -/

theorem sentry_of_word {ws t r : Text} (hws : ∀ c ∈ ws, isSpace c = true) (ht : IsWord t) :
    sentry ⟨ws ++ (t ++ r), false⟩ = some (t ++ r) := by
  obtain ⟨c, t', rfl⟩ := List.exists_cons_of_ne_nil ht.1
  have hc : isSpace c = false := ht.2 c (by simp)
  simp [sentry, List.dropWhile_append_of_pos hws, hc]

theorem word_of_word (ws : Text) {t r : Text} (old : Text) (hws : ∀ c ∈ ws, isSpace c = true)
    (ht : IsWord t) (hr : Delimited r) :
    word old ⟨ws ++ (t ++ r), false⟩ = (t, ⟨r, false⟩) := by
  simp only [word, sentry_of_word hws ht, takeWord_append ht.2 hr, dropWord_append ht.2 hr]

theorem uint64_of_decimal (ws : Text) {r : Text} (old n : UInt64)
    (hws : ∀ c ∈ ws, isSpace c = true) (hr : Delimited r) :
    uint64 old ⟨ws ++ (decimal n.toNat ++ r), false⟩ = (n, ⟨r, false⟩) := by
  simp only [uint64, sentry_of_word hws (isWord_decimal _), scanNumber_decimal _ hr.isDigit_head,
    decimal_ne_nil, if_false, ofDigits_decimal, n.toNat_lt, if_true, Bool.false_eq_true]
  simp

theorem int32_of_decimalInt (ws : Text) {r : Text} (old z : Int32)
    (hws : ∀ c ∈ ws, isSpace c = true) (hr : Delimited r) :
    int32 old ⟨ws ++ (decimalInt z.toInt ++ r), false⟩ = (z, ⟨r, false⟩) := by
  have hvalue := value_scanNumber_decimalInt z.toInt hr
  have hlow : ¬ z.toInt < -2 ^ 31 := not_lt.mpr z.le_toInt
  have hhigh : ¬ 2 ^ 31 ≤ z.toInt := not_le.mpr z.toInt_lt
  have hrest : (scanNumber (decimalInt z.toInt ++ r)).rest = r := by
    rw [scanNumber_decimalInt _ hr]
  simp only [int32, sentry_of_word hws (isWord_decimalInt _), digits_scanNumber_decimalInt _ hr,
    hvalue, hrest, hlow, hhigh, if_false]
  simp

theorem int64_of_decimalInt (ws : Text) {r : Text} (old z : Int64)
    (hws : ∀ c ∈ ws, isSpace c = true) (hr : Delimited r) :
    int64 old ⟨ws ++ (decimalInt z.toInt ++ r), false⟩ = (z, ⟨r, false⟩) := by
  have hvalue := value_scanNumber_decimalInt z.toInt hr
  have hlow : ¬ z.toInt < -2 ^ 63 := not_lt.mpr z.le_toInt
  have hhigh : ¬ 2 ^ 63 ≤ z.toInt := not_le.mpr z.toInt_lt
  have hrest : (scanNumber (decimalInt z.toInt ++ r)).rest = r := by
    rw [scanNumber_decimalInt _ hr]
  simp only [int64, sentry_of_word hws (isWord_decimalInt _), digits_scanNumber_decimalInt _ hr,
    hvalue, hrest, hlow, hhigh, if_false]
  simp

theorem isSpace_head_of_dropWhile {t u : Text} {c : Char} (h : t.dropWhile isSpace = c :: u) :
    isSpace c = false := by
  have hhead := List.head?_dropWhile_not isSpace t
  rw [h] at hhead
  simpa using hhead

theorem word_eq_words (old t : Text) :
    (word old ⟨t, false⟩).1 = (words t).headD old := by
  rw [← words_dropWhile_isSpace t]
  cases h : t.dropWhile isSpace with
  | nil => simp [word, sentry, h, words]
  | cons c u => simp [word, sentry, h, words_of_head (isSpace_head_of_dropWhile h)]

theorem spaceless_word {old : Text} (s : IStream) (h : Spaceless old) :
    Spaceless (s.word old).1 := by
  unfold word
  split
  · exact h
  · exact spaceless_takeWord _

end IStream

/-- `std::stoi`: leading white space is skipped, what follows the digits is
not looked at. -/
def stoi (t : Text) : Except StdException Int32 :=
  let n := scanNumber (t.dropWhile isSpace)
  if n.digits = [] then .error .invalidArgument
  else if n.value < -2 ^ 31 ∨ 2 ^ 31 ≤ n.value then .error .outOfRange
  else .ok (Int32.ofInt n.value)

/-- The text starts with a number that fits, behind an optional sign. -/
def StartsWithInt (t : Text) : Prop :=
  let n := scanNumber (t.dropWhile isSpace)
  n.digits ≠ [] ∧ -2 ^ 31 ≤ n.value ∧ n.value < 2 ^ 31

theorem stoi_returns_iff {t : Text} : (∃ v, stoi t = .ok v) ↔ StartsWithInt t := by
  unfold stoi StartsWithInt
  dsimp only
  split
  · next hnil => simp [hnil]
  · next hdigits =>
      split
      · next hrange =>
          refine iff_of_false (fun ⟨_, h⟩ ↦ (by cases h)) fun h ↦ ?_
          omega
      · next hrange =>
          refine iff_of_true ⟨_, rfl⟩ ⟨hdigits, ?_⟩
          omega

theorem stoi_decimalInt (z : Int32) {r : Text} (hr : Delimited r) :
    stoi (decimalInt z.toInt ++ r) = .ok z := by
  have hvalue := value_scanNumber_decimalInt z.toInt hr
  have hlow : ¬ z.toInt < -2 ^ 31 := not_lt.mpr z.le_toInt
  have hhigh : ¬ 2 ^ 31 ≤ z.toInt := not_le.mpr z.toInt_lt
  have hdrop : (decimalInt z.toInt ++ r).dropWhile isSpace = decimalInt z.toInt ++ r := by
    obtain ⟨c, t, ht⟩ := List.exists_cons_of_ne_nil (isWord_decimalInt z.toInt).1
    have hc : isSpace c = false := (isWord_decimalInt z.toInt).2 c (by simp [ht])
    simp [ht, hc]
  simp only [stoi, hdrop, digits_scanNumber_decimalInt _ hr, hvalue, hlow, hhigh, or_self,
    if_false]
  simp

/-- The conversion stops at the first character that is no digit. -/
theorem stoi_decimal {n : ℕ} (hn : n < 2 ^ 31) {r : Text} (hr : ∀ c ∈ r.head?, c.isDigit = false) :
    stoi (decimal n ++ r) = .ok (Int32.ofNat n) := by
  have hdrop : (decimal n ++ r).dropWhile isSpace = decimal n ++ r := by
    obtain ⟨c, t, ht⟩ := List.exists_cons_of_ne_nil (decimal_ne_nil n)
    have hc : isSpace c = false := spaceless_decimal n c (by simp [ht])
    simp [ht, hc]
  have hvalue : (⟨false, decimal n, r⟩ : Scanned).value = n := by simp [Scanned.value]
  have hrange : ¬ ((n : ℤ) < -2 ^ 31 ∨ 2 ^ 31 ≤ (n : ℤ)) := by omega
  simp only [stoi, hdrop, scanNumber_decimal n hr, hvalue, decimal_ne_nil, hrange, if_false]
  rfl

/-- `std::stoul`: a minus sign negates modulo `2 ^ 64`. -/
def stoul (t : Text) : Except StdException UInt64 :=
  let n := scanNumber (t.dropWhile isSpace)
  if n.digits = [] then .error .invalidArgument
  else if 2 ^ 64 ≤ ofDigits n.digits then .error .outOfRange
  else
    let v := UInt64.ofNat (ofDigits n.digits)
    .ok (if n.negative then -v else v)

theorem stoul_decimal {n : ℕ} (hn : n < 2 ^ 64) : stoul (decimal n) = .ok (UInt64.ofNat n) := by
  have hdrop : (decimal n).dropWhile isSpace = decimal n := by
    obtain ⟨c, t, ht⟩ := List.exists_cons_of_ne_nil (decimal_ne_nil n)
    have hc : isSpace c = false := spaceless_decimal n c (by simp [ht])
    simp [ht, hc]
  have hscan := scanNumber_decimal n delimited_nil.isDigit_head
  rw [List.append_nil] at hscan
  simpa [stoul, hdrop, hscan, decimal_ne_nil] using hn

/-! ## Reading back a line that holds one word or number -/

namespace IStream

theorem word_line {value : Text} (hv : IsWord value) :
    ((ofText (value ++ ['\n'])).word []).1 = value := by
  have h := word_of_word [] (r := ['\n']) [] (by simp) hv (by simp [isSpace])
  simpa [ofText] using congrArg Prod.fst h

theorem uint64_line (n : UInt64) : ((ofText (decimal n.toNat ++ ['\n'])).uint64 0).1 = n := by
  have h := uint64_of_decimal [] (r := ['\n']) 0 n (by simp) (by simp [isSpace])
  simpa [ofText] using congrArg Prod.fst h

theorem uint32_line (old n : UInt32) :
    ((ofText (decimal n.toNat ++ ['\n'])).uint32 old).1 = n := by
  have hsentry : sentry ⟨decimal n.toNat ++ ['\n'], false⟩ = some (decimal n.toNat ++ ['\n']) :=
    sentry_of_word (List.forall_mem_nil _) (isWord_decimal n.toNat)
  have hlt : n.toNat < 2 ^ 32 := n.toNat_lt
  simp only [uint32, ofText, hsentry, scanNumber_decimal n.toNat (r := ['\n']) (by simp),
    decimal_ne_nil, if_false, ofDigits_decimal, hlt, if_true, Bool.false_eq_true]
  simp

theorem int32_line (old z : Int32) :
    ((ofText (decimalInt z.toInt ++ ['\n'])).int32 old).1 = z := by
  have h := int32_of_decimalInt [] (r := ['\n']) old z (by simp) (by simp [isSpace])
  simpa [ofText] using congrArg Prod.fst h

theorem stoi_word_line (z : Int32) :
    stoi ((ofText (decimalInt z.toInt ++ ['\n'])).word []).1 = .ok z := by
  rw [word_line (isWord_decimalInt _)]
  simpa using stoi_decimalInt z (r := []) (by simp)

end IStream
end BetterCpu
