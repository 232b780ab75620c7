import BetterCpu.Library.Search
import BetterCpu.ProcessManager.Grouping

/-!
# Reading the times of a process

`read_process_times` on the content of `/proc/<pid>/stat`.  The name of the
process stands in parentheses and is not escaped, so the first parenthesis that
opens and the last one that closes are taken for its bounds, on the first line.
-/

namespace BetterCpu.ProcessManager

open Text

def kUtimeTokenIndex : ℕ := 11
def kStimeTokenIndex : ℕ := 12

/-- `std::stoull`; `unsigned long long` has the range of `unsigned long`. -/
def stoull (t : Text) : Except StdException UInt64 :=
  stoul t

/-- The loop over the tokens, which stops behind the one of `stime`. -/
def readTicks (tokenIndex : ℕ) (utime stime : UInt64) :
    List Text → Except StdException (UInt64 × UInt64)
  | [] => return (utime, stime)
  | token :: tokens =>
      if tokenIndex = kUtimeTokenIndex then do
        let utime ← stoull token
        readTicks (tokenIndex + 1) utime stime tokens
      else if tokenIndex = kStimeTokenIndex then do
        let stime ← stoull token
        return (utime, stime)
      else readTicks (tokenIndex + 1) utime stime tokens

/-- The part of `read_process_times` behind `getline`.  The `substr` of the
name starts within the line and cannot throw. -/
def parseStatLine (line : Text) : Except StdException (Option ProcessTimes) :=
  match line.idxOf? '(', rfind ')' line with
  | some nameStart, some nameEnd =>
      if nameEnd ≤ nameStart then return none
      else do
        let name := (line.drop (nameStart + 1)).take (nameEnd - nameStart - 1)
        let remainder ← substr line (nameEnd + 2)
        let (utime, stime) ← readTicks 0 0 0 (words remainder)
        return some ⟨name, utime + stime⟩
  | _, _ => return none

def firstLine (content : Text) : Text :=
  content.takeWhile (· ≠ '\n')

/-- `stat` is the content of the file, `none` when it cannot be opened. -/
def readProcessTimes (stat : Option Text) : Except StdException (Option ProcessTimes) :=
  match stat with
  | none => return none
  | some content => parseStatLine (firstLine content)

/-! ## The tokens -/

def ticksAt (tokens : List Text) (index : ℕ) (old : UInt64) : Except StdException UInt64 :=
  match tokens[index]? with
  | none => .ok old
  | some token => stoull token

@[simp] theorem ticksAt_cons_succ (token : Text) (tokens : List Text) (index : ℕ)
    (old : UInt64) : ticksAt (token :: tokens) (index + 1) old = ticksAt tokens index old := rfl

theorem readTicks_stime (utime stime : UInt64) (tokens : List Text) :
    readTicks kStimeTokenIndex utime stime tokens = do
      let stime ← ticksAt tokens 0 stime
      return (utime, stime) := by
  cases tokens <;> rfl

/-- The loop converts the two tokens, in this order. -/
theorem readTicks_eq {tokenIndex : ℕ} (h : tokenIndex ≤ kUtimeTokenIndex) (utime stime : UInt64)
    (tokens : List Text) :
    readTicks tokenIndex utime stime tokens = do
      let utime ← ticksAt tokens (kUtimeTokenIndex - tokenIndex) utime
      let stime ← ticksAt tokens (kStimeTokenIndex - tokenIndex) stime
      return (utime, stime) := by
  induction tokens generalizing tokenIndex with
  | nil => rfl
  | cons token tokens ih =>
      by_cases hutime : tokenIndex = kUtimeTokenIndex
      · subst hutime
        calc
          readTicks kUtimeTokenIndex utime stime (token :: tokens)
              = stoull token >>= fun utime ↦
                  readTicks kStimeTokenIndex utime stime tokens := by
                simp only [readTicks, if_true]
                rfl
          _ = stoull token >>= fun utime ↦ do
                let stime ← ticksAt tokens 0 stime
                return (utime, stime) :=
              bind_congr fun utime ↦ readTicks_stime utime stime tokens
      · have hstime : tokenIndex ≠ kStimeTokenIndex := by
          simp only [kUtimeTokenIndex, kStimeTokenIndex] at h ⊢
          omega
        have hnext : tokenIndex + 1 ≤ kUtimeTokenIndex := by omega
        have hu : kUtimeTokenIndex - tokenIndex = kUtimeTokenIndex - (tokenIndex + 1) + 1 := by
          omega
        have hs : kStimeTokenIndex - tokenIndex = kStimeTokenIndex - (tokenIndex + 1) + 1 := by
          simp only [kUtimeTokenIndex, kStimeTokenIndex] at hnext ⊢
          omega
        rw [readTicks, if_neg hutime, if_neg hstime, ih hnext, hu, hs, ticksAt_cons_succ]
        rfl

/-! ## The bounds of the name -/

/-- The line as it is taken apart: the first parenthesis that opens and the
last one that closes are the bounds of the name. -/
structure Bracketed (line front name behind : Text) : Prop where
  eq : line = front ++ '(' :: (name ++ ')' :: behind)
  front : '(' ∉ front
  behind : ')' ∉ behind

theorem Bracketed.parseStatLine_eq {line front name behind : Text}
    (h : Bracketed line front name behind) :
    parseStatLine line = do
      let remainder ← substr behind 1
      let (utime, stime) ← readTicks 0 0 0 (words remainder)
      return some ⟨name, utime + stime⟩ := by
  obtain ⟨rfl, hfront, hbehind⟩ := h
  have hstart : (front ++ '(' :: (name ++ ')' :: behind)).idxOf? '(' = some front.length :=
    find_append_cons hfront
  have hend : rfind ')' (front ++ '(' :: (name ++ ')' :: behind)) =
      some (front.length + 1 + name.length) := by
    have hlast := rfind_append_cons (t := front ++ '(' :: name) hbehind
    simpa [Nat.add_assoc, Nat.add_comm 1] using hlast
  have hname : ((front ++ '(' :: (name ++ ')' :: behind)).drop (front.length + 1)).take
      (front.length + 1 + name.length - front.length - 1) = name := by
    have hlength : front.length + 1 + name.length - front.length - 1 = name.length := by omega
    rw [hlength, List.drop_append, List.drop_eq_nil_of_le (Nat.le_add_right _ 1)]
    simp
  have hremainder : substr (front ++ '(' :: (name ++ ')' :: behind))
      (front.length + 1 + name.length + 2) = substr behind 1 := by
    have happend := substr_append (front ++ '(' :: name ++ [')']) behind 1
    simpa [Nat.add_assoc, Nat.add_comm 1] using happend
  have hlt : ¬ front.length + 1 + name.length ≤ front.length := by omega
  simp only [parseStatLine, hstart, hend, hlt, if_false, hname, hremainder]

/-- Any other line is not valid. -/
theorem parseStatLine_cases (line : Text) :
    (∃ front name behind, Bracketed line front name behind) ∨ parseStatLine line = .ok none := by
  by_cases hclose : ')' ∈ line
  · obtain ⟨before, behind, rfl, hbehind⟩ := exists_rfind_append_cons hclose
    by_cases hopen : '(' ∈ before
    · obtain ⟨front, name, rfl, hfront⟩ := exists_find_append_cons hopen
      exact Or.inl ⟨front, name, behind, by simp, hfront, hbehind⟩
    · right
      have hend : rfind ')' (before ++ ')' :: behind) = some before.length :=
        rfind_append_cons hbehind
      unfold parseStatLine
      -- whatever opens does so behind the last parenthesis that closes
      rw [find_append_of_notMem hopen, hend]
      cases (')' :: behind).idxOf? '(' with
      | none => rfl
      | some position =>
          have hle : before.length ≤ position + before.length := Nat.le_add_left _ _
          simp only [Option.map_some, hle, if_true]
          rfl
  · right
    rw [parseStatLine, rfind_eq_none hclose]
    cases line.idxOf? '(' <;> rfl

/-! ## When an exception escapes -/

/-- The token starts with a number that fits, behind an optional sign. -/
def Convertible (token : Text) : Prop :=
  let n := scanNumber (token.dropWhile isSpace)
  n.digits ≠ [] ∧ ofDigits n.digits < 2 ^ 64

theorem stoull_returns_iff {token : Text} : (∃ v, stoull token = .ok v) ↔ Convertible token := by
  unfold stoull stoul Convertible
  dsimp only
  split
  · next hnil => simp [hnil]
  · next hdigits =>
      split
      · next hlarge => exact ⟨fun ⟨_, h⟩ ↦ (by cases h), fun h ↦ absurd h.2 (not_lt.mpr hlarge)⟩
      · next hsmall => exact ⟨fun _ ↦ ⟨hdigits, not_le.mp hsmall⟩, fun _ ↦ ⟨_, rfl⟩⟩

/-- Both tokens of the line, as far as there are any, can be converted. -/
def ConvertibleTicks (tokens : List Text) : Prop :=
  (∀ token, tokens[kUtimeTokenIndex]? = some token → Convertible token) ∧
    ∀ token, tokens[kStimeTokenIndex]? = some token → Convertible token

theorem ticksAt_returns_iff {tokens : List Text} (index : ℕ) (old : UInt64) :
    (∃ v, ticksAt tokens index old = .ok v) ↔
      ∀ token, tokens[index]? = some token → Convertible token := by
  unfold ticksAt
  cases tokens[index]? with
  | none => simp
  | some token => simpa using stoull_returns_iff

theorem readTicks_returns_iff {tokens : List Text} :
    (∃ ticks, readTicks 0 0 0 tokens = .ok ticks) ↔ ConvertibleTicks tokens := by
  rw [readTicks_eq (Nat.zero_le _), bind_returns_iff, ConvertibleTicks,
    ← ticksAt_returns_iff kUtimeTokenIndex 0, ← ticksAt_returns_iff kStimeTokenIndex 0]
  simp only [bind_returns_iff, Nat.sub_zero]
  constructor
  · rintro ⟨utime, hutime, stime, hstime, -⟩
    exact ⟨⟨utime, hutime⟩, stime, hstime⟩
  · rintro ⟨⟨utime, hutime⟩, stime, hstime⟩
    exact ⟨utime, hutime, stime, hstime, _, rfl⟩

theorem parseStatLine_returns_iff {line : Text} :
    (∃ times, parseStatLine line = .ok times) ↔
      ∀ front name behind, Bracketed line front name behind →
        behind ≠ [] ∧ ConvertibleTicks (words behind.tail) := by
  have hbracketed {front name behind : Text} (h : Bracketed line front name behind) :
      (∃ times, parseStatLine line = .ok times) ↔
        behind ≠ [] ∧ ConvertibleTicks (words behind.tail) := by
    rw [h.parseStatLine_eq]
    cases behind with
    | nil => simp [substr, bind, Except.bind]
    | cons c behind =>
        have hsubstr : substr (c :: behind) 1 = .ok behind := by simp [substr]
        rw [hsubstr, ← readTicks_returns_iff, bind_returns_iff]
        constructor
        · rintro ⟨_, ⟨⟩, h⟩
          obtain ⟨ticks, hticks, -⟩ := bind_returns_iff.mp h
          exact ⟨by simp, ticks, hticks⟩
        · rintro ⟨-, ticks, hticks⟩
          exact ⟨behind, rfl, bind_returns_iff.mpr ⟨ticks, hticks, _, rfl⟩⟩
  constructor
  · intro h front name behind hline
    exact (hbracketed hline).mp h
  · intro h
    rcases parseStatLine_cases line with ⟨front, name, behind, hline⟩ | hnone
    · exact (hbracketed hline).mpr (h front name behind hline)
    · exact ⟨none, hnone⟩

/-- The first line does not end behind a name, and its two tokens can be
converted. -/
def Harmless (stat : Option Text) : Prop :=
  ∀ content, stat = some content → ∀ front name behind,
    Bracketed (firstLine content) front name behind →
      behind ≠ [] ∧ ConvertibleTicks (words behind.tail)

theorem readProcessTimes_returns_iff {stat : Option Text} :
    (∃ times, readProcessTimes stat = .ok times) ↔ Harmless stat := by
  cases stat with
  | none => exact ⟨fun _ _ h ↦ (by cases h), fun _ ↦ ⟨none, rfl⟩⟩
  | some content =>
      rw [readProcessTimes, parseStatLine_returns_iff]
      simp [Harmless]

/-- The first line has a name. -/
def Named (stat : Option Text) : Prop :=
  ∃ content, stat = some content ∧
    ∃ front name behind, Bracketed (firstLine content) front name behind

theorem Bracketed.parseStatLine_ne {line front name behind : Text}
    (h : Bracketed line front name behind) : parseStatLine line ≠ .ok none := by
  rw [h.parseStatLine_eq]
  intro hnone
  obtain ⟨remainder, -, hrest⟩ := bind_eq_ok_iff.mp hnone
  obtain ⟨ticks, -, hsome⟩ := bind_eq_ok_iff.mp hrest
  cases hsome

theorem readProcessTimes_eq_none_iff {stat : Option Text} :
    readProcessTimes stat = .ok none ↔ ¬ Named stat := by
  cases stat with
  | none => simp [readProcessTimes, Named]; rfl
  | some content =>
      constructor
      · rintro hnone ⟨_, ⟨⟩, front, name, behind, hline⟩
        exact hline.parseStatLine_ne hnone
      · intro hnot
        rcases parseStatLine_cases (firstLine content) with hline | hnone
        · exact absurd ⟨content, rfl, hline⟩ hnot
        · exact hnone

/-! ## The two passes -/

/-- What the files of the processes hold in the two passes of one call of
`collect_programs`. -/
structure StatSampling where
  pids : List Int32
  firstStat : Int32 → Option Text
  secondStat : Int32 → Option Text

/-- The times that the two passes read; the second one reads what was valid in
the first. -/
structure StatSampling.Reads (s : StatSampling) (sampling : Sampling) : Prop where
  pids : sampling.pids = s.pids
  firstTimes : ∀ pid ∈ s.pids, readProcessTimes (s.firstStat pid) = .ok (sampling.firstTimes pid)
  secondTimes : ∀ pid ∈ s.pids, sampling.firstTimes pid ≠ none →
    readProcessTimes (s.secondStat pid) = .ok (sampling.secondTimes pid)

/-- `collect_programs` may return `programs`; without a result an exception
escapes. -/
def StatSampling.Collects (round : Arithmetic) (clock : Clock) (s : StatSampling)
    (programs : List ProgramGroup) : Prop :=
  ∃ sampling, s.Reads sampling ∧ ProcessManager.Collects round clock sampling programs

theorem StatSampling.exists_collects_iff {round : Arithmetic} {clock : Clock}
    {s : StatSampling} :
    (∃ programs, s.Collects round clock programs) ↔ ∃ sampling, s.Reads sampling := by
  constructor
  · rintro ⟨programs, sampling, hreads, -⟩
    exact ⟨sampling, hreads⟩
  · rintro ⟨sampling, hreads⟩
    obtain ⟨programs, hprograms⟩ := exists_isOutcome round clock sampling
    exact ⟨programs, sampling, hreads, collects_of_isOutcome hprograms⟩

def timesOf (stat : Option Text) : Option ProcessTimes :=
  (readProcessTimes stat).toOption.join

theorem readProcessTimes_eq_timesOf {stat : Option Text} (h : Harmless stat) :
    readProcessTimes stat = .ok (timesOf stat) := by
  obtain ⟨times, htimes⟩ := readProcessTimes_returns_iff.mpr h
  simp [timesOf, htimes, Except.toOption]

theorem StatSampling.exists_reads_iff {s : StatSampling} :
    (∃ sampling, s.Reads sampling) ↔ ∀ pid ∈ s.pids, Harmless (s.firstStat pid) ∧
      (Named (s.firstStat pid) → Harmless (s.secondStat pid)) := by
  constructor
  · rintro ⟨sampling, hpids, hfirst, hsecond⟩ pid hpid
    refine ⟨readProcessTimes_returns_iff.mp ⟨_, hfirst pid hpid⟩, fun hnamed ↦ ?_⟩
    have hvalid : sampling.firstTimes pid ≠ none := by
      intro hnone
      have hread := hfirst pid hpid
      rw [hnone] at hread
      exact readProcessTimes_eq_none_iff.mp hread hnamed
    exact readProcessTimes_returns_iff.mp ⟨_, hsecond pid hpid hvalid⟩
  · intro h
    refine ⟨⟨s.pids, fun pid ↦ timesOf (s.firstStat pid), fun pid ↦ timesOf (s.secondStat pid)⟩,
      rfl, fun pid hpid ↦ readProcessTimes_eq_timesOf (h pid hpid).1, fun pid hpid hvalid ↦ ?_⟩
    refine readProcessTimes_eq_timesOf ((h pid hpid).2 ?_)
    by_contra hnot
    apply hvalid
    simp [timesOf, readProcessTimes_eq_none_iff.mpr hnot, Except.toOption]

/-- No exception escapes from `read_process_times` if and only if the first
line of the file does not end behind the parenthesis that closes the name, and
the tokens of `utime` and `stime`, as far as there are any, start with numbers
below `2 ^ 64`.  One file without this property costs the listing of all
processes. -/
theorem listing_returns_iff (round : Arithmetic) (clock : Clock) (s : StatSampling) :
    (∀ stat, (∃ times, readProcessTimes stat = .ok times) ↔ Harmless stat) ∧
      ((∃ programs, s.Collects round clock programs) ↔
        ∀ pid ∈ s.pids, Harmless (s.firstStat pid) ∧
          (Named (s.firstStat pid) → Harmless (s.secondStat pid))) :=
  ⟨fun _ ↦ readProcessTimes_returns_iff,
    StatSampling.exists_collects_iff.trans StatSampling.exists_reads_iff⟩

/-- What the kernel shows of a process that has named itself `a)` and `b` with
a line break between them. -/
def brokenNameStat : Text := "2 (a)\nb) S 1 2 2 0 -1 0 0 0 0 0 7 3\n".toList

theorem not_listing_returns_brokenName :
    readProcessTimes (some brokenNameStat) = .error .outOfRange ∧
      ∀ (round : Arithmetic) (clock : Clock) (s : StatSampling), 2 ∈ s.pids →
        s.firstStat 2 = some brokenNameStat → ¬ ∃ programs, s.Collects round clock programs := by
  have hline : Bracketed (firstLine brokenNameStat) ['2', ' '] ['a'] [] :=
    ⟨by decide +kernel, by decide, by decide⟩
  have hthrows : readProcessTimes (some brokenNameStat) = .error .outOfRange :=
    hline.parseStatLine_eq
  refine ⟨hthrows, fun round clock s hpid hstat ↦ ?_⟩
  rw [StatSampling.exists_collects_iff]
  rintro ⟨sampling, hreads⟩
  have hread := hreads.firstTimes 2 hpid
  rw [hstat, hthrows] at hread
  cases hread

end BetterCpu.ProcessManager
