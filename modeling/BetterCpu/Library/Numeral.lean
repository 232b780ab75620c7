import BetterCpu.Library.Search

/-!
# Digit strings

Texts of digits, alone and with one separator between two of them, and the
longest runs of digits in an arbitrary text.
-/

namespace BetterCpu.Text

def Digits (t : Text) : Prop :=
  t ≠ [] ∧ ∀ c ∈ t, c.isDigit = true

/-- `first` and `second` are digits, with the separator between them. -/
structure Separated (separator : Char) (t first second : Text) : Prop where
  eq : t = first ++ separator :: second
  first : Digits first
  second : Digits second

def digitRuns (t : Text) : List Text :=
  t.splitOnP fun c ↦ !c.isDigit

/-- Every run of digits is the decimal of a 64 bit number. -/
def SmallRuns (t : Text) : Prop :=
  ∀ run ∈ digitRuns t, ofDigits run < 2 ^ 64

instance decidableSmallRuns (t : Text) : Decidable (SmallRuns t) :=
  List.decidableBAll _ _

theorem digits_iff_all {t : Text} : Digits t ↔ t ≠ [] ∧ t.all Char.isDigit = true := by
  rw [Digits, List.all_eq_true]

instance decidableDigits (t : Text) : Decidable (Digits t) :=
  decidable_of_iff' _ digits_iff_all

theorem digitRuns_of_digits {t : Text} (h : Digits t) : digitRuns t = [t] :=
  List.splitOnP_eq_singleton fun c hc ↦ by simp [h.2 c hc]

theorem digitRuns_of_separated {separator : Char} (hsep : separator.isDigit = false)
    {t first second : Text} (h : Separated separator t first second) :
    digitRuns t = [first, second] := by
  have hrest : digitRuns second = [second] := digitRuns_of_digits h.second
  rw [h.eq, digitRuns, List.splitOnP_append_cons_of_forall_mem _ _ (by simp [hsep])]
  · exact congrArg _ hrest
  · intro c hc
    simp [h.first.2 c hc]

theorem SmallRuns.of_digits {t : Text} (h : SmallRuns t) (ht : Digits t) : ofDigits t < 2 ^ 64 :=
  h t (by simp [digitRuns_of_digits ht])

theorem SmallRuns.of_separated {separator : Char} (hsep : separator.isDigit = false)
    {t first second : Text} (h : SmallRuns t) (ht : Separated separator t first second) :
    ofDigits first < 2 ^ 64 ∧ ofDigits second < 2 ^ 64 := by
  have hruns := digitRuns_of_separated hsep ht
  exact ⟨h first (by simp [hruns]), h second (by simp [hruns])⟩

/-- Of a text that is digits, or digits around a separator, these are all runs. -/
theorem smallRuns_of_digits {t : Text} (ht : Digits t) (h : ofDigits t < 2 ^ 64) :
    SmallRuns t := by
  simpa [SmallRuns, digitRuns_of_digits ht] using h

theorem smallRuns_of_separated {separator : Char} (hsep : separator.isDigit = false)
    {t first second : Text} (ht : Separated separator t first second)
    (hfirst : ofDigits first < 2 ^ 64) (hsecond : ofDigits second < 2 ^ 64) : SmallRuns t := by
  simpa [SmallRuns, digitRuns_of_separated hsep ht] using ⟨hfirst, hsecond⟩

theorem not_digits_of_mem {separator : Char} (hsep : separator.isDigit = false) {t : Text}
    (h : separator ∈ t) : ¬ Digits t := by
  intro ht
  simp [ht.2 separator h] at hsep

/-- A text is separated in at most one way. -/
theorem Separated.unique {separator : Char} (hsep : separator.isDigit = false)
    {t first second first' second' : Text} (h : Separated separator t first second)
    (h' : Separated separator t first' second') : first' = first ∧ second' = second := by
  have hruns := (digitRuns_of_separated hsep h').symm.trans (digitRuns_of_separated hsep h)
  simpa using hruns

theorem stoul_eq_of_digits {t : Text} (h : Digits t) :
    stoul t = if 2 ^ 64 ≤ ofDigits t then .error .outOfRange
      else .ok (UInt64.ofNat (ofDigits t)) := by
  obtain ⟨c, ds, rfl⟩ := List.exists_cons_of_ne_nil h.1
  have hc : c.isDigit = true := h.2 c List.mem_cons_self
  have hminus : c ≠ '-' := by rintro rfl; simp at hc
  have hplus : c ≠ '+' := by rintro rfl; simp at hc
  have hdrop : (c :: ds).dropWhile isSpace = c :: ds := by simp [isSpace_of_isDigit hc]
  have hscan : scanNumber (c :: ds) = ⟨false, c :: ds, []⟩ := by
    have hdigits := scanDigits_append (b := false) h.2 delimited_nil.isDigit_head
    simpa [scanNumber, hminus, hplus] using hdigits
  simp only [stoul, hdrop, hscan, List.cons_ne_nil, Bool.false_eq_true, if_false]

theorem stoul_of_digits {t : Text} (h : Digits t) (hsmall : ofDigits t < 2 ^ 64) :
    stoul t = .ok (UInt64.ofNat (ofDigits t)) := by
  rw [stoul_eq_of_digits h, if_neg (not_le.mpr hsmall)]

theorem stoul_returns_iff {t : Text} (h : Digits t) :
    (∃ v, stoul t = .ok v) ↔ ofDigits t < 2 ^ 64 := by
  rw [stoul_eq_of_digits h, ← not_le]
  split
  · next hlarge => simpa using hlarge
  · next hsmall => simpa using hsmall

/-! ## Finding the separator -/

/-- The two sides of the first separator, if both are digits: the positions are
those of `find`, and a side that is empty is seen from them. -/
def separate (separator : Char) (t : Text) : Option (Text × Text) :=
  match t.idxOf? separator with
  | none => none
  | some position =>
      if position = 0 ∨ position = t.length - 1 then none
      else if !(t.take position).all Char.isDigit || !(t.drop (position + 1)).all Char.isDigit then
        none
      else some (t.take position, t.drop (position + 1))

theorem separate_append {separator : Char} {first second : Text} (h : separator ∉ first) :
    separate separator (first ++ separator :: second) =
      if first ≠ [] ∧ second ≠ [] ∧ first.all Char.isDigit ∧ second.all Char.isDigit then
        some (first, second) else none := by
  have hdrop : (first ++ separator :: second).drop (first.length + 1) = second := by
    simp [← List.drop_drop]
  have hlast : first.length = (first ++ separator :: second).length - 1 ↔ second = [] := by
    rw [List.length_append, List.length_cons, ← List.length_eq_zero_iff]
    omega
  rw [separate, find_append_cons h]
  simp only [hdrop, hlast, List.take_left, List.length_eq_zero_iff]
  by_cases hfirst : first = []
  · simp [hfirst]
  by_cases hsecond : second = []
  · simp [hsecond]
  cases first.all Char.isDigit <;> cases second.all Char.isDigit <;> simp [hfirst, hsecond]

theorem separate_eq_some_iff {separator : Char} (hsep : separator.isDigit = false)
    {t first second : Text} :
    separate separator t = some (first, second) ↔ Separated separator t first second := by
  constructor
  · intro h
    by_cases hmem : separator ∈ t
    · obtain ⟨a, b, rfl, ha⟩ := exists_find_append_cons hmem
      rw [separate_append ha] at h
      split at h
      · next hdigits =>
          obtain ⟨ha, hb, halla, hallb⟩ := hdigits
          cases h
          exact ⟨rfl, digits_iff_all.mpr ⟨ha, halla⟩, digits_iff_all.mpr ⟨hb, hallb⟩⟩
      · cases h
    · have hnone : t.idxOf? separator = none := List.idxOf?_eq_none_iff.mpr hmem
      simp [separate, hnone] at h
  · rintro ⟨rfl, hfirst, hsecond⟩
    rw [separate_append fun hmem ↦ not_digits_of_mem hsep hmem hfirst]
    rw [digits_iff_all] at hfirst hsecond
    simp [hfirst, hsecond]

theorem separate_eq_none_iff {separator : Char} (hsep : separator.isDigit = false) {t : Text} :
    separate separator t = none ↔ ¬ ∃ first second, Separated separator t first second := by
  rw [Option.eq_none_iff_forall_ne_some]
  simp only [ne_eq, Prod.forall, separate_eq_some_iff hsep, not_exists]

end BetterCpu.Text
