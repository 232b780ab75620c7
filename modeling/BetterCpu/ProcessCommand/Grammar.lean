import BetterCpu.Library.Numeral
import BetterCpu.ProcessCommand

/-!
# What the parsers accept

The ids and the ranges of `bettercpu p` are digits, or two digit strings with a
separator between them.  The parsers compute with positions, and `separate` is
what they compute.
-/

namespace BetterCpu.ProcessCommand

open Text

/-- The parser accepts the texts of the given shape with the given values, and
leaves its output alone on all others. -/
structure Parses {α : Type} (parse : α → Except StdException (Bool × α)) (shape : Prop)
    (value : α → Prop) : Prop where
  accepts : shape → ∃ new, value new ∧ ∀ old, parse old = .ok (true, new)
  rejects : ¬ shape → ∀ old, parse old = .ok (false, old)

/-! ## The parsers by their grammar -/

theorem parseProgramId_of_digits {token : Text} (h : Digits token) (programId : UInt64) :
    parseProgramId token programId = do
      let programId ← stoul token
      return (true, programId) := by
  rw [digits_iff_all] at h
  simp [parseProgramId, h]

theorem parseProgramId_of_not_digits {token : Text} (h : ¬ Digits token) (programId : UInt64) :
    parseProgramId token programId = .ok (false, programId) := by
  rw [digits_iff_all, not_and] at h
  unfold parseProgramId
  split
  · rfl
  · next hne => rw [if_pos (by simpa using h hne)]; rfl

theorem parseProcessId_eq (token : Text) (programId processId : UInt64) :
    parseProcessId token programId processId =
      match separate 'p' token with
      | none => return (false, programId, processId)
      | some (programToken, processToken) => do
          let programId ← stoul programToken
          let processId ← stoul processToken
          return (true, programId, processId) := by
  unfold parseProcessId separate
  cases token.idxOf? 'p' with
  | none => rfl
  | some position =>
      dsimp only
      by_cases hedge : position = 0 ∨ position = token.length - 1
      · simp only [if_pos hedge]
      · simp only [if_neg hedge]
        cases (token.take position).all Char.isDigit <;>
          cases (token.drop (position + 1)).all Char.isDigit <;> rfl

theorem parseListingRange_eq (token : Text) (range : ProcessListingRange) :
    parseListingRange token range =
      match separate ':' token with
      | none => return (false, range)
      | some (startToken, endToken) => do
          let startValue ← stoul startToken
          let endValue ← stoul endToken
          if endValue < startValue then return (false, range)
          return (true, ⟨startValue, endValue⟩) := by
  unfold parseListingRange separate
  cases token.idxOf? ':' with
  | none => rfl
  | some position =>
      dsimp only
      by_cases hedge : position = 0 ∨ position = token.length - 1
      · simp only [if_pos hedge]
      · simp only [if_neg hedge]
        cases (token.take position).all Char.isDigit <;>
          cases (token.drop (position + 1)).all Char.isDigit <;> rfl

/-! ## Tokens whose numbers fit -/

theorem toNat_ofNat_ofDigits {t : Text} (h : ofDigits t < 2 ^ 64) :
    (UInt64.ofNat (ofDigits t)).toNat = ofDigits t :=
  UInt64.toNat_ofNat_of_lt' h

theorem parses_programId {token : Text} (h : SmallRuns token) :
    Parses (parseProgramId token) (Digits token) fun programId ↦
      programId.toNat = ofDigits token where
  accepts hdigits := by
    have hsmall := h.of_digits hdigits
    refine ⟨UInt64.ofNat (ofDigits token), toNat_ofNat_ofDigits hsmall, fun old ↦ ?_⟩
    rw [parseProgramId_of_digits hdigits, stoul_of_digits hdigits hsmall]
    rfl
  rejects := parseProgramId_of_not_digits

theorem isDigit_p : 'p'.isDigit = false := by decide

theorem isDigit_colon : ':'.isDigit = false := by decide

theorem parses_processId {token : Text} (h : SmallRuns token) :
    Parses (fun old : UInt64 × UInt64 ↦ parseProcessId token old.1 old.2)
      (∃ first second, Separated 'p' token first second) fun new ↦
        ∃ first second, Separated 'p' token first second ∧ new.1.toNat = ofDigits first ∧
          new.2.toNat = ofDigits second where
  accepts := by
    rintro ⟨first, second, htoken⟩
    obtain ⟨hfirst, hsecond⟩ := h.of_separated isDigit_p htoken
    refine ⟨(UInt64.ofNat (ofDigits first), UInt64.ofNat (ofDigits second)),
      ⟨first, second, htoken, toNat_ofNat_ofDigits hfirst, toNat_ofNat_ofDigits hsecond⟩,
      fun old ↦ ?_⟩
    rw [parseProcessId_eq, (separate_eq_some_iff isDigit_p).mpr htoken]
    simp only [stoul_of_digits htoken.first hfirst, stoul_of_digits htoken.second hsecond]
    rfl
  rejects hnot old := by
    rw [parseProcessId_eq, (separate_eq_none_iff isDigit_p).mpr hnot]
    rfl

theorem parses_listingRange {token : Text} (h : SmallRuns token) :
    Parses (parseListingRange token)
      (∃ first second, Separated ':' token first second ∧ ofDigits first ≤ ofDigits second)
      fun range ↦ ∃ first second, Separated ':' token first second ∧
        range.start.toNat = ofDigits first ∧ range.stop.toNat = ofDigits second where
  accepts := by
    rintro ⟨first, second, htoken, hle⟩
    obtain ⟨hfirst, hsecond⟩ := h.of_separated isDigit_colon htoken
    refine ⟨⟨UInt64.ofNat (ofDigits first), UInt64.ofNat (ofDigits second)⟩,
      ⟨first, second, htoken, toNat_ofNat_ofDigits hfirst, toNat_ofNat_ofDigits hsecond⟩,
      fun old ↦ ?_⟩
    have horder : ¬ UInt64.ofNat (ofDigits second) < UInt64.ofNat (ofDigits first) := by
      rw [UInt64.lt_iff_toNat_lt, toNat_ofNat_ofDigits hfirst, toNat_ofNat_ofDigits hsecond]
      exact not_lt.mpr hle
    rw [parseListingRange_eq, (separate_eq_some_iff isDigit_colon).mpr htoken]
    simp only [stoul_of_digits htoken.first hfirst, stoul_of_digits htoken.second hsecond, bind,
      Except.bind, horder, if_false]
    rfl
  rejects hnot old := by
    rw [parseListingRange_eq]
    cases hseparate : separate ':' token with
    | none => rfl
    | some tokens =>
        have htoken := (separate_eq_some_iff isDigit_colon).mp hseparate
        obtain ⟨hfirst, hsecond⟩ := h.of_separated isDigit_colon htoken
        have horder : UInt64.ofNat (ofDigits tokens.2) < UInt64.ofNat (ofDigits tokens.1) := by
          rw [UInt64.lt_iff_toNat_lt, toNat_ofNat_ofDigits hfirst, toNat_ofNat_ofDigits hsecond]
          exact not_le.mp fun hle ↦ hnot ⟨_, _, htoken, hle⟩
        simp only [stoul_of_digits htoken.first hfirst, stoul_of_digits htoken.second hsecond,
          bind, Except.bind, horder, if_true]
        rfl

/-- The parsers accept exactly their grammar, on every token whose runs of
digits are numbers below `2 ^ 64`: digits for a program, digits around one `p`
for a process, digits around one `:` in ascending order for a range.  No token
is both kinds of id, and the ids of the listing are read back. -/
theorem parsers_accept_exactly (token : Text) (h : SmallRuns token) :
    Parses (parseProgramId token) (Digits token)
        (fun programId ↦ programId.toNat = ofDigits token) ∧
      Parses (fun old : UInt64 × UInt64 ↦ parseProcessId token old.1 old.2)
        (∃ first second, Separated 'p' token first second)
        (fun new ↦ ∃ first second, Separated 'p' token first second ∧
          new.1.toNat = ofDigits first ∧ new.2.toNat = ofDigits second) ∧
      Parses (parseListingRange token)
        (∃ first second, Separated ':' token first second ∧ ofDigits first ≤ ofDigits second)
        (fun range ↦ ∃ first second, Separated ':' token first second ∧
          range.start.toNat = ofDigits first ∧ range.stop.toNat = ofDigits second) ∧
      ¬ (Digits token ∧ ∃ first second, Separated 'p' token first second) ∧
      (∀ i j : UInt64, ∀ old old', parseProgramId (programToken i.toNat) old = .ok (true, i) ∧
        parseProcessId (processToken i.toNat j.toNat) old old' = .ok (true, i, j)) := by
  refine ⟨parses_programId h, parses_processId h, parses_listingRange h, ?_, fun i j old old' ↦ ?_⟩
  · rintro ⟨hdigits, first, second, htoken⟩
    exact not_digits_of_mem isDigit_p (by simp [htoken.eq]) hdigits
  · rw [parseProgramId_programToken i.toNat_lt, parseProcessId_processToken i.toNat_lt j.toNat_lt,
      UInt64.ofNat_toNat, UInt64.ofNat_toNat]
    exact ⟨rfl, rfl⟩

theorem parsers_accept_exactly_sample :
    ∃ new, parseListingRange ['3', ':', '1', '2'] ⟨0, 0⟩ = .ok (true, new) := by
  obtain ⟨-, -, hrange, -⟩ := parsers_accept_exactly ['3', ':', '1', '2'] (by decide)
  obtain ⟨new, -, hnew⟩ := hrange.accepts ⟨['3'], ['1', '2'],
    ⟨rfl, by decide, by decide⟩, by decide⟩
  exact ⟨new, hnew _⟩

end BetterCpu.ProcessCommand
