import BetterCpu.Library.Collect
import BetterCpu.ProcessCommand.KillCommand

/-!
# Numbers that do not fit

The parsers of `bettercpu p` check that a token has digits in the right places
and hand these to `std::stoul`, which throws for a number from `2 ^ 64` on.
-/

namespace BetterCpu.ProcessCommand

open Text

/-- The token is digits around the separator, and a side does not fit. -/
def OversizedSide (separator : Char) (token : Text) : Prop :=
  ∃ first second, Separated separator token first second ∧
    (2 ^ 64 ≤ ofDigits first ∨ 2 ^ 64 ≤ ofDigits second)

/-- The token is an id of a program or of a process with a number that does not
fit. -/
def OversizedId (token : Text) : Prop :=
  OversizedSide 'p' token ∨ Digits token ∧ 2 ^ 64 ≤ ofDigits token

def invalidId (idToken : Text) : CommandOutcome :=
  failure ("[!!] invalid id '".toList ++ idToken ++ "', expected format N or NpM".toList) []

def rootRequired : CommandOutcome :=
  failure "[!!] root privileges required".toList []

variable {token : Text}

/-! ## Tokens with two sides -/

theorem not_oversizedSide_iff {separator : Char} (hsep : separator.isDigit = false)
    {first second : Text} (h : Separated separator token first second) :
    ¬ OversizedSide separator token ↔ ofDigits first < 2 ^ 64 ∧ ofDigits second < 2 ^ 64 := by
  rw [← not_le, ← not_le, ← not_or]
  refine not_congr ⟨?_, fun hlarge ↦ ⟨first, second, h, hlarge⟩⟩
  rintro ⟨first', second', h', hlarge⟩
  obtain ⟨rfl, rfl⟩ := h.unique hsep h'
  exact hlarge

/-- Without an oversized side a token with two sides has small numbers. -/
theorem smallRuns_of_not_oversizedSide {separator : Char} (hsep : separator.isDigit = false)
    {first second : Text} (h : Separated separator token first second)
    (hnot : ¬ OversizedSide separator token) : SmallRuns token := by
  obtain ⟨hfirst, hsecond⟩ := (not_oversizedSide_iff hsep h).mp hnot
  exact smallRuns_of_separated hsep h hfirst hsecond

/-- The two conversions of a parser behind its checks. -/
theorem stoul_both_returns_iff {separator : Char} (hsep : separator.isDigit = false)
    {first second : Text} (h : Separated separator token first second) {α : Type}
    (f : UInt64 → UInt64 → α) :
    (∃ result, (stoul first >>= fun a ↦ stoul second >>= fun b ↦ return f a b) = .ok result) ↔
      ¬ OversizedSide separator token := by
  rw [returns_both_iff, stoul_returns_iff h.first, stoul_returns_iff h.second,
    not_oversizedSide_iff hsep h]

theorem parseListingRange_returns_iff (range : ProcessListingRange) :
    (∃ result, parseListingRange token range = .ok result) ↔ ¬ OversizedSide ':' token := by
  rw [parseListingRange_eq]
  cases hseparate : separate ':' token with
  | none =>
      have hnone := (separate_eq_none_iff isDigit_colon).mp hseparate
      refine ⟨fun _ ⟨first, second, h, _⟩ ↦ hnone ⟨first, second, h⟩, fun _ ↦ ⟨_, rfl⟩⟩
  | some tokens =>
      have hordered (startValue endValue : UInt64) :
          (if endValue < startValue then return (false, range)
            else return (true, ⟨startValue, endValue⟩) :
              Except StdException (Bool × ProcessListingRange)) =
            return if endValue < startValue then (false, range)
              else (true, ⟨startValue, endValue⟩) := by
        split <;> rfl
      simp only [hordered]
      exact stoul_both_returns_iff isDigit_colon
        ((separate_eq_some_iff isDigit_colon).mp hseparate) _

theorem parseListingRange_of_not_small {range : ProcessListingRange}
    {result : Bool × ProcessListingRange} (hlarge : ¬ SmallRuns token)
    (h : parseListingRange token range = .ok result) : result = (false, range) := by
  have hside := (parseListingRange_returns_iff range).mp ⟨result, h⟩
  have hnot : ¬ ∃ first second, Separated ':' token first second := fun ⟨_, _, hseparated⟩ ↦
    hlarge (smallRuns_of_not_oversizedSide isDigit_colon hseparated hside)
  rw [parseListingRange_eq, (separate_eq_none_iff isDigit_colon).mpr hnot] at h
  exact (Except.ok.inj h).symm

/-! ## The command -/

theorem runProcessKillCommand_of_not_root (kill : Int32 → Bool) (programs : List ProgramGroup)
    (idToken : Text) : runProcessKillCommand false kill programs idToken = .ok rootRequired := rfl

theorem not_oversizedId_of_separated {first second : Text}
    (h : Separated 'p' token first second) :
    ¬ OversizedId token ↔ ¬ OversizedSide 'p' token := by
  have hdigits : ¬ Digits token := not_digits_of_mem isDigit_p (by simp [h.eq])
  simp [OversizedId, hdigits]

theorem not_oversizedId_of_digits (h : Digits token) :
    ¬ OversizedId token ↔ ofDigits token < 2 ^ 64 := by
  have hside : ¬ OversizedSide 'p' token := by
    rintro ⟨first, second, hseparated, -⟩
    exact not_digits_of_mem isDigit_p (by simp [hseparated.eq]) h
  simp [OversizedId, hside, h]

theorem runProcessKillCommand_returns_iff (kill : Int32 → Bool) (programs : List ProgramGroup) :
    (∃ outcome, runProcessKillCommand true kill programs token = .ok outcome) ↔
      ¬ OversizedId token := by
  by_cases hseparated : ∃ first second, Separated 'p' token first second
  · obtain ⟨first, second, htoken⟩ := hseparated
    rw [not_oversizedId_of_separated htoken]
    constructor
    · rintro ⟨outcome, hrun⟩
      obtain ⟨⟨isProcess, programId, processId⟩, hparse, -⟩ := bind_eq_ok_iff.mp hrun
      rw [parseProcessId_eq, (separate_eq_some_iff isDigit_p).mpr htoken] at hparse
      exact (stoul_both_returns_iff isDigit_p htoken fun programId processId ↦
        (true, programId, processId)).mp ⟨_, hparse⟩
    · intro hside
      obtain ⟨outcome, hrun, -⟩ := runProcessKillCommand_of_separated kill programs
        (smallRuns_of_not_oversizedSide isDigit_p htoken hside) htoken
      exact ⟨outcome, hrun⟩
  by_cases hdigits : Digits token
  · rw [runProcessKillCommand_of_not_separated hseparated, parseProgramId_of_digits hdigits,
      not_oversizedId_of_digits hdigits, ← stoul_returns_iff hdigits]
    constructor
    · rintro ⟨outcome, hrun⟩
      obtain ⟨parsed, hparse, -⟩ := bind_eq_ok_iff.mp hrun
      obtain ⟨programId, hvalue, -⟩ := bind_eq_ok_iff.mp hparse
      exact ⟨programId, hvalue⟩
    · rintro ⟨programId, hvalue⟩
      rw [hvalue]
      exact ⟨_, rfl⟩
  · refine ⟨fun _ ↦ ?_,
      fun _ ↦ ⟨_, runProcessKillCommand_of_neither kill programs hseparated hdigits⟩⟩
    rintro (⟨first, second, htoken, -⟩ | ⟨htoken, -⟩)
    · exact hseparated ⟨first, second, htoken⟩
    · exact hdigits htoken

theorem runProcessKillCommand_of_not_small {kill : Int32 → Bool} {programs : List ProgramGroup}
    {outcome : CommandOutcome} (hlarge : ¬ SmallRuns token)
    (h : runProcessKillCommand true kill programs token = .ok outcome) :
    outcome = invalidId token := by
  have hid := (runProcessKillCommand_returns_iff kill programs).mp ⟨outcome, h⟩
  have hseparated : ¬ ∃ first second, Separated 'p' token first second := fun ⟨_, _, htoken⟩ ↦
    hlarge (smallRuns_of_not_oversizedSide isDigit_p htoken
      ((not_oversizedId_of_separated htoken).mp hid))
  have hdigits : ¬ Digits token := fun htoken ↦
    hlarge (smallRuns_of_digits htoken ((not_oversizedId_of_digits htoken).mp hid))
  rw [runProcessKillCommand_of_neither kill programs hseparated hdigits] at h
  exact (Except.ok.inj h).symm

/-- A range is parsed without an exception, and reported as invalid if one of
its numbers does not fit, except for digits around one `:` with a side from
`2 ^ 64` on; in the same way an id, as root, except for digits around one `p` and
for digits alone. -/
theorem tokens_handled_iff (token : Text) :
    (∀ range, (∃ result, parseListingRange token range = .ok result ∧
        (¬ SmallRuns token → result = (false, range))) ↔ ¬ OversizedSide ':' token) ∧
      ∀ root kill programs, (∃ outcome,
        runProcessKillCommand root kill programs token = .ok outcome ∧
          (¬ SmallRuns token → outcome = if root then invalidId token else rootRequired)) ↔
        root = false ∨ ¬ OversizedId token := by
  constructor
  · intro range
    rw [← parseListingRange_returns_iff range]
    exact exists_congr fun result ↦
      ⟨And.left, fun h ↦ ⟨h, fun hlarge ↦ parseListingRange_of_not_small hlarge h⟩⟩
  · intro root kill programs
    cases root with
    | false =>
        exact ⟨fun _ ↦ Or.inl rfl, fun _ ↦
          ⟨_, runProcessKillCommand_of_not_root kill programs token, fun _ ↦ rfl⟩⟩
    | true =>
        rw [← runProcessKillCommand_returns_iff kill programs]
        simp only [Bool.true_eq_false, false_or, if_true]
        exact exists_congr fun outcome ↦
          ⟨And.left, fun h ↦ ⟨h, fun hlarge ↦ runProcessKillCommand_of_not_small hlarge h⟩⟩

/-- The first number that does not fit, as a program, and as both ends of a
range. -/
def twoPow64 : Text :=
  ['1', '8', '4', '4', '6', '7', '4', '4', '0', '7', '3', '7', '0', '9', '5', '5', '1', '6',
    '1', '6']

theorem not_tokens_handled_twoPow64 :
    runProcessKillCommand true (fun _ ↦ true) [] twoPow64 = .error .outOfRange ∧
      parseListingRange (twoPow64 ++ ':' :: twoPow64) ⟨0, 0⟩ = .error .outOfRange :=
  ⟨rfl, rfl⟩

end BetterCpu.ProcessCommand
