import BetterCpu.Library.Floating
import BetterCpu.Library.Lines
import BetterCpu.Library.Search
import BetterCpu.MemGuard

/-!
# Reading the memory pressure

`/proc/pressure/memory` has a line for `some` and one for `full`, each with
three averages and a total.  The first line that starts with `some` is taken
apart into tokens, and each average is the first token with its prefix.
-/

namespace BetterCpu.MemGuard

open Text

/-- A `MemoryPressure` as it is read, with its averages as `double`s. -/
structure PressureSample where
  avg10 : Double
  avg60 : Double
  avg300 : Double
  deriving DecidableEq

def zeroSample : PressureSample := ⟨.finite 0, .finite 0, .finite 0⟩

/-- The common body of `parse_avg10`, `parse_avg60` and `parse_avg300`. -/
def parseAvg (prefixText : Text) (round : Rounding) (line : Text) : Except StdException Double :=
  match (words line).find? prefixText.isPrefixOf with
  | none => return .finite 0
  | some token => stod round (token.drop prefixText.length)

def avg10Prefix : Text := ['a', 'v', 'g', '1', '0', '=']
def avg60Prefix : Text := ['a', 'v', 'g', '6', '0', '=']
def avg300Prefix : Text := ['a', 'v', 'g', '3', '0', '0', '=']

def parseAvg10 : Rounding → Text → Except StdException Double :=
  parseAvg avg10Prefix

def parseAvg60 : Rounding → Text → Except StdException Double :=
  parseAvg avg60Prefix

def parseAvg300 : Rounding → Text → Except StdException Double :=
  parseAvg avg300Prefix

/-- The line that is parsed. -/
def someLine? (content : Text) : Option Text :=
  (getlines '\n' content).find? ['s', 'o', 'm', 'e', ' '].isPrefixOf

/-- `content` is that of `/proc/pressure/memory`, `none` when it cannot be
opened. -/
def readMemoryPressure (round : Rounding) (content : Option Text) :
    Except StdException PressureSample :=
  match content.bind someLine? with
  | none => return zeroSample
  | some line => do
      let avg10 ← parseAvg10 round line
      let avg60 ← parseAvg60 round line
      let avg300 ← parseAvg300 round line
      return ⟨avg10, avg60, avg300⟩

/-- `classify` on the averages as they are read. -/
def classifySample (pressure : PressureSample) : MemoryPressureLevel :=
  if pressure.avg10.above 20 then .critical
  else if pressure.avg10.atLeast 5 then .rising
  else .healthy

/-! ## When an exception escapes -/

/-- The number behind each prefix, where there is one, is a numeral. -/
def HarmlessLine (round : Rounding) (line : Text) : Prop :=
  ∀ prefixText ∈ [avg10Prefix, avg60Prefix, avg300Prefix], ∀ token,
    (words line).find? prefixText.isPrefixOf = some token →
      IsNumeral round (token.drop prefixText.length)

/-- This is asked of the line that is parsed only. -/
def HarmlessPressure (round : Rounding) (content : Option Text) : Prop :=
  ∀ line, content.bind someLine? = some line → HarmlessLine round line

theorem parseAvg_returns_iff {prefixText line : Text} {round : Rounding} :
    (∃ avg, parseAvg prefixText round line = .ok avg) ↔
      ∀ token, (words line).find? prefixText.isPrefixOf = some token →
        IsNumeral round (token.drop prefixText.length) := by
  unfold parseAvg
  cases (words line).find? prefixText.isPrefixOf with
  | none => exact iff_of_true ⟨_, rfl⟩ (by simp)
  | some token => simpa using stod_returns_iff

theorem readMemoryPressure_returns_iff {round : Rounding} {content : Option Text} :
    (∃ pressure, readMemoryPressure round content = .ok pressure) ↔
      HarmlessPressure round content := by
  unfold readMemoryPressure HarmlessPressure
  cases content.bind someLine? with
  | none => exact iff_of_true ⟨_, rfl⟩ (by simp)
  | some line =>
      have hline : HarmlessLine round line ↔ (∃ avg, parseAvg10 round line = .ok avg) ∧
          (∃ avg, parseAvg60 round line = .ok avg) ∧ ∃ avg, parseAvg300 round line = .ok avg := by
        simp only [HarmlessLine, List.forall_mem_cons, parseAvg10, parseAvg60, parseAvg300,
          parseAvg_returns_iff]
        simp
      simp only [Option.some.injEq, forall_eq', hline, bind_returns_iff]
      constructor
      · rintro ⟨avg10, h10, avg60, h60, avg300, h300, -⟩
        exact ⟨⟨avg10, h10⟩, ⟨avg60, h60⟩, avg300, h300⟩
      · rintro ⟨⟨avg10, h10⟩, ⟨avg60, h60⟩, avg300, h300⟩
        exact ⟨avg10, h10, avg60, h60, avg300, h300, _, rfl⟩

/-! ## The averages as rationals -/

/-- A rational that compares with the thresholds as the `double` does: beyond
all finite ones for an infinity, and zero for a NaN, which exceeds nothing. -/
def toRat : Double → ℚ
  | .finite value => value
  | .infinite negative => if negative then -2 ^ 1024 else 2 ^ 1024
  | .nan => 0

def PressureSample.toMemoryPressure (pressure : PressureSample) : MemoryPressure :=
  ⟨toRat pressure.avg10, toRat pressure.avg60, toRat pressure.avg300⟩

theorem twenty_lt_toRat (value : Double) : 20 < toRat value ↔ value.above 20 = true := by
  have hbig : (20 : ℚ) < 2 ^ 1024 := by
    calc (20 : ℚ) < 2 ^ 5 := by norm_num
      _ ≤ 2 ^ 1024 := pow_le_pow_right₀ (by norm_num) (by norm_num)
  cases value with
  | finite value => simp [toRat, Double.above]
  | infinite negative =>
      cases negative with
      | false => simpa [toRat, Double.above] using hbig
      | true =>
          have hneg : (-2 ^ 1024 : ℚ) < 20 := (neg_neg_of_pos (by positivity)).trans (by norm_num)
          simpa [toRat, Double.above] using hneg.le
  | nan => norm_num [toRat, Double.above]

theorem five_le_toRat (value : Double) : 5 ≤ toRat value ↔ value.atLeast 5 = true := by
  have hbig : (5 : ℚ) ≤ 2 ^ 1024 := by
    calc (5 : ℚ) ≤ 2 ^ 5 := by norm_num
      _ ≤ 2 ^ 1024 := pow_le_pow_right₀ (by norm_num) (by norm_num)
  cases value with
  | finite value => simp [toRat, Double.atLeast]
  | infinite negative =>
      cases negative with
      | false => simpa [toRat, Double.atLeast] using hbig
      | true =>
          have hneg : (-2 ^ 1024 : ℚ) < 5 := (neg_neg_of_pos (by positivity)).trans (by norm_num)
          simpa [toRat, Double.atLeast] using hneg
  | nan => norm_num [toRat, Double.atLeast]

/-- The level that a tick sees is that of the averages as they are read. -/
theorem classify_toMemoryPressure (pressure : PressureSample) :
    classify pressure.toMemoryPressure = classifySample pressure := by
  simp only [classify, classifySample, PressureSample.toMemoryPressure, twenty_lt_toRat,
    five_le_toRat]

/-! ## The file of the kernel -/

/-- The fields of a line: the averages are numbers of hundredths, and the fields
may stand in any order. -/
structure PressureLine where
  avg10 : ℕ
  avg60 : ℕ
  avg300 : ℕ
  total : UInt64
  fields : List Text
  perm : fields.Perm [avg10Prefix ++ hundredths avg10, avg60Prefix ++ hundredths avg60,
    avg300Prefix ++ hundredths avg300, ['t', 'o', 't', 'a', 'l', '='] ++ decimal total.toNat]

def PressureLine.text (kind : Text) (line : PressureLine) : Text :=
  kind ++ line.fields.flatMap fun field ↦ ' ' :: field

def someKind : Text := ['s', 'o', 'm', 'e']
def fullKind : Text := ['f', 'u', 'l', 'l']

/-- The two lines of the file in either order. -/
def pressureText (someFirst : Bool) (someLine fullLine : PressureLine) : Text :=
  (if someFirst then [someLine.text someKind, fullLine.text fullKind]
    else [fullLine.text fullKind, someLine.text someKind]).flatMap fun line ↦ line ++ ['\n']

namespace PressureLine

variable {line : PressureLine} {kind field : Text}

/-- The fields as keys and values. -/
def entries (line : PressureLine) : List (Text × Text) :=
  [(avg10Prefix, hundredths line.avg10), (avg60Prefix, hundredths line.avg60),
    (avg300Prefix, hundredths line.avg300), (['t', 'o', 't', 'a', 'l', '='],
      decimal line.total.toNat)]

theorem mem_fields_iff :
    field ∈ line.fields ↔ ∃ entry ∈ line.entries, entry.1 ++ entry.2 = field := by
  rw [line.perm.mem_iff]
  simp [entries, eq_comm]

/-- No key starts the field of another one. -/
theorem eq_of_isPrefixOf {entry entry' : Text × Text} (h : entry ∈ line.entries)
    (h' : entry' ∈ line.entries) (hkey : entry.1.isPrefixOf (entry'.1 ++ entry'.2) = true) :
    entry = entry' := by
  simp only [entries, List.mem_cons, List.not_mem_nil, or_false] at h h'
  rcases h with rfl | rfl | rfl | rfl <;> rcases h' with rfl | rfl | rfl | rfl <;>
    first
    | rfl
    | simp [avg10Prefix, avg60Prefix, avg300Prefix] at hkey

theorem isWord_of_mem_fields (h : field ∈ line.fields) : IsWord field := by
  have hhundredths (n : ℕ) : Spaceless (hundredths n) := by
    intro c hc
    rcases plain_of_mem_hundredths hc with hdigit | rfl
    · exact isSpace_of_isDigit hdigit
    · decide
  have happend {p t : Text} (hp : IsWord p) (ht : Spaceless t) : IsWord (p ++ t) := by
    refine ⟨List.append_ne_nil_of_left_ne_nil hp.1 t, fun c hc ↦ ?_⟩
    exact (List.mem_append.mp hc).elim (hp.2 c) (ht c)
  obtain ⟨entry, hentry, rfl⟩ := mem_fields_iff.mp h
  simp only [entries, List.mem_cons, List.not_mem_nil, or_false] at hentry
  rcases hentry with rfl | rfl | rfl | rfl
  · exact happend (p := avg10Prefix) (by decide) (hhundredths _)
  · exact happend (p := avg60Prefix) (by decide) (hhundredths _)
  · exact happend (p := avg300Prefix) (by decide) (hhundredths _)
  · exact happend (p := ['t', 'o', 't', 'a', 'l', '=']) (by decide) (spaceless_decimal _)

theorem words_text (hkind : IsWord kind) (line : PressureLine) :
    words (line.text kind) = kind :: line.fields :=
  words_append_fields hkind fun _ ↦ isWord_of_mem_fields

theorem newline_notMem_text (hkind : IsWord kind) (line : PressureLine) :
    '\n' ∉ line.text kind := by
  intro hmem
  rcases List.mem_append.mp hmem with hhead | hfields
  · exact hkind.2.notMem isSpace_newline hhead
  · obtain ⟨field, hfield, hchar⟩ := List.mem_flatMap.mp hfields
    rcases List.mem_cons.mp hchar with hblank | hchar
    · cases hblank
    · exact (isWord_of_mem_fields hfield).2.notMem isSpace_newline hchar

/-- The line starts with its kind and a blank. -/
theorem isPrefixOf_text (p kind : Text) (line : PressureLine) (hlength : p.length = kind.length) :
    (p ++ [' ']).isPrefixOf (line.text kind) = true ↔ p = kind := by
  have hne : line.fields ≠ [] := by
    intro hnil
    have hperm := line.perm
    rw [hnil] at hperm
    exact absurd hperm.length_eq (by simp)
  obtain ⟨field, fields, hfields⟩ := List.exists_cons_of_ne_nil hne
  rw [List.isPrefixOf_iff_prefix, text, hfields, List.flatMap_cons]
  constructor
  · intro h
    have happend : p <+: kind ++ (' ' :: field ++ fields.flatMap fun field ↦ ' ' :: field) :=
      (List.prefix_append _ _).trans h
    exact (List.prefix_of_prefix_length_le happend (List.prefix_append _ _) hlength.le).eq_of_length
      hlength
  · rintro rfl
    exact ⟨field ++ fields.flatMap fun field ↦ ' ' :: field, by simp⟩

/-- The prefix of an average finds the average, wherever it stands. -/
theorem parseAvg_text {prefixText : Text} {n : ℕ} (hkind : IsWord kind)
    (hentry : (prefixText, hundredths n) ∈ line.entries)
    (hother : prefixText.isPrefixOf kind = false) :
    parseAvg prefixText .exact (line.text kind) = .ok (.finite ((n : ℚ) / 100)) := by
  have hfield : prefixText ++ hundredths n ∈ line.fields := mem_fields_iff.mpr ⟨_, hentry, rfl⟩
  have hfind : (kind :: line.fields).find? prefixText.isPrefixOf =
      some (prefixText ++ hundredths n) := by
    refine find?_eq_some_of_unique (List.mem_cons_of_mem _ hfield)
      (List.isPrefixOf_iff_prefix.mpr (List.prefix_append _ _)) fun field hmem hprefix ↦ ?_
    rcases List.mem_cons.mp hmem with rfl | hmem
    · rw [hother] at hprefix
      cases hprefix
    · obtain ⟨entry, hentry', rfl⟩ := mem_fields_iff.mp hmem
      rw [← eq_of_isPrefixOf hentry hentry' hprefix]
  rw [parseAvg, words_text hkind, hfind]
  simp only [List.drop_left]
  exact stod_hundredths n

theorem readMemoryPressure_of_someLine {content : Text} (hkind : IsWord kind)
    (hother : ∀ p ∈ [avg10Prefix, avg60Prefix, avg300Prefix], p.isPrefixOf kind = false)
    (hsome : someLine? content = some (line.text kind)) :
    readMemoryPressure .exact (some content) =
      .ok ⟨.finite ((line.avg10 : ℚ) / 100), .finite ((line.avg60 : ℚ) / 100),
        .finite ((line.avg300 : ℚ) / 100)⟩ := by
  have h10 : parseAvg10 .exact (line.text kind) = .ok (.finite ((line.avg10 : ℚ) / 100)) :=
    parseAvg_text hkind (by simp [entries]) (hother _ (by simp))
  have h60 : parseAvg60 .exact (line.text kind) = .ok (.finite ((line.avg60 : ℚ) / 100)) :=
    parseAvg_text hkind (by simp [entries]) (hother _ (by simp))
  have h300 : parseAvg300 .exact (line.text kind) = .ok (.finite ((line.avg300 : ℚ) / 100)) :=
    parseAvg_text hkind (by simp [entries]) (hother _ (by simp))
  simp only [readMemoryPressure, Option.bind_some, hsome, h10, h60, h300]
  rfl

end PressureLine

/-- The line of the kind `some` is found in either order. -/
theorem someLine?_pressureText (someFirst : Bool) (someLine fullLine : PressureLine) :
    someLine? (pressureText someFirst someLine fullLine) = some (someLine.text someKind) := by
  have hsome : (someKind ++ [' ']).isPrefixOf (someLine.text someKind) = true :=
    (PressureLine.isPrefixOf_text _ _ _ rfl).mpr rfl
  have hfull : (someKind ++ [' ']).isPrefixOf (fullLine.text fullKind) = false := by
    rw [Bool.eq_false_iff]
    exact fun h ↦ absurd ((PressureLine.isPrefixOf_text someKind fullKind _ rfl).mp h) (by decide)
  have hnewline : ∀ line ∈ (if someFirst then [someLine.text someKind, fullLine.text fullKind]
      else [fullLine.text fullKind, someLine.text someKind]), '\n' ∉ line := by
    intro line hline
    have hcases : line = someLine.text someKind ∨ line = fullLine.text fullKind := by
      cases someFirst with
      | false => simpa [or_comm] using hline
      | true => simpa using hline
    rcases hcases with rfl | rfl
    · exact PressureLine.newline_notMem_text (by decide) _
    · exact PressureLine.newline_notMem_text (by decide) _
  rw [someLine?, pressureText, getlines_flatMap hnewline]
  change List.find? (someKind ++ [' ']).isPrefixOf _ = _
  cases someFirst with
  | false => simp [hsome, hfull]
  | true => simp [hsome]

/-- The level depends on the first average of the `some` line alone. -/
theorem classify_pressureText (someFirst : Bool) (someLine fullLine : PressureLine) :
    ∃ pressure,
      readMemoryPressure .exact (some (pressureText someFirst someLine fullLine)) = .ok pressure ∧
        (classifySample pressure = .critical ↔ 20 < (someLine.avg10 : ℚ) / 100) ∧
        (classifySample pressure = .rising ↔
          5 ≤ (someLine.avg10 : ℚ) / 100 ∧ (someLine.avg10 : ℚ) / 100 ≤ 20) ∧
        (classifySample pressure = .healthy ↔ (someLine.avg10 : ℚ) / 100 < 5) := by
  refine ⟨_, PressureLine.readMemoryPressure_of_someLine (by decide) (by decide)
    (someLine?_pressureText someFirst someLine fullLine), ?_⟩
  generalize (someLine.avg10 : ℚ) / 100 = avg10
  simp only [classifySample, Double.above, Double.atLeast, decide_eq_true_eq]
  split_ifs with hcritical hrising
  · simp only [true_iff, false_iff, not_and, not_le, not_lt]
    exact ⟨hcritical, fun _ ↦ hcritical, by linarith⟩
  · simp only [true_iff, false_iff, not_lt]
    exact ⟨not_lt.mp hcritical, ⟨hrising, not_lt.mp hcritical⟩, hrising⟩
  · simp only [true_iff, false_iff, not_and]
    exact ⟨hcritical, fun h ↦ absurd h hrising, not_le.mp hrising⟩

end BetterCpu.MemGuard
