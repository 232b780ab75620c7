import BetterCpu.ProcessManager.StatFile

/-!
# The line of the kernel

`/proc/<pid>/stat` as the kernel renders it for a name without line breaks.
Nothing behind the name closes a parenthesis, so the name is found whatever it
contains, and the tokens behind it are the fields of the line.
-/

namespace BetterCpu.ProcessManager

open Text

/-- `pid (comm) state f1 … f10 utime stime …`, with `further` the fields behind
`stime`. -/
def statLine (pid : Int32) (comm : Text) (state : Char) (fields : List ℤ)
    (utime stime : UInt64) (further : List Text) : Text :=
  decimalInt pid.toInt ++ ' ' :: '(' :: (comm ++ ')' :: ' ' :: state :: ' ' ::
    (fields.flatMap (fun field ↦ decimalInt field ++ [' ']) ++
      (decimal utime.toNat ++ ' ' :: (decimal stime.toNat ++
        (further.flatMap (fun field ↦ ' ' :: field) ++ ['\n'])))))

/-! ## Characters that do not occur -/

/-- What stands behind the name, without the end of the line. -/
def behindName (state : Char) (fields : List ℤ) (utime stime : UInt64) (further : List Text) :
    Text :=
  ' ' :: state :: ' ' :: (fields.flatMap (fun field ↦ decimalInt field ++ [' ']) ++
    (decimal utime.toNat ++ ' ' :: (decimal stime.toNat ++
      further.flatMap (fun field ↦ ' ' :: field))))

theorem notMem_behindName {c state : Char} (hc : c.isDigit = false) (hminus : c ≠ '-')
    (hblank : c ≠ ' ') (hstate : c ≠ state) (fields : List ℤ) (utime stime : UInt64)
    {further : List Text} (hfurther : ∀ field ∈ further, c ∉ field) :
    c ∉ behindName state fields utime stime further := by
  have hfields : c ∉ fields.flatMap (fun field ↦ decimalInt field ++ [' ']) := by
    simpa [hblank] using fun field _ ↦ notMem_decimalInt hc hminus field
  have hrest : c ∉ further.flatMap (fun field ↦ ' ' :: field) := by
    simpa [hblank] using hfurther
  simp only [behindName, List.mem_cons, List.mem_append, hblank, hstate, hfields, hrest,
    notMem_decimal hc, or_self, not_false_eq_true]

theorem bracketed_statLine (pid : Int32) {comm : Text} (hcomm : '\n' ∉ comm) {state : Char}
    (hstate : state.isAlpha = true) (fields : List ℤ) (utime stime : UInt64)
    {further : List Text} (hfurther : ∀ field ∈ further, ')' ∉ field ∧ '\n' ∉ field) :
    Bracketed (firstLine (statLine pid comm state fields utime stime further))
      (decimalInt pid.toInt ++ [' ']) comm (behindName state fields utime stime further) := by
  have hclose : ')' ≠ state := by rintro rfl; simp at hstate
  have hbreak : '\n' ≠ state := by rintro rfl; simp at hstate
  have hbehind : ')' ∉ behindName state fields utime stime further :=
    notMem_behindName (by decide) (by decide) (by decide) hclose fields utime stime
      fun field hfield ↦ (hfurther field hfield).1
  have hopen : '(' ∉ decimalInt pid.toInt := notMem_decimalInt (by decide) (by decide) _
  refine ⟨?_, by simpa using hopen, hbehind⟩
  have hline : statLine pid comm state fields utime stime further =
      (decimalInt pid.toInt ++ [' '] ++ '(' :: (comm ++ ')' ::
        behindName state fields utime stime further)) ++ '\n' :: [] := by
    simp [statLine, behindName]
  have hpid : '\n' ∉ decimalInt pid.toInt := notMem_decimalInt (by decide) (by decide) _
  have hend : '\n' ∉ behindName state fields utime stime further :=
    notMem_behindName (by decide) (by decide) (by decide) hbreak fields utime stime
      fun field hfield ↦ (hfurther field hfield).2
  rw [hline, firstLine, takeWhile_ne_append_cons]
  simp [hpid, hcomm, hend]

/-! ## The tokens -/

theorem words_fields (fields : List ℤ) (r : Text) :
    words (fields.flatMap (fun field ↦ decimalInt field ++ [' ']) ++ r) =
      fields.map decimalInt ++ words r := by
  induction fields with
  | nil => rfl
  | cons field fields ih =>
      rw [List.flatMap_cons, List.append_assoc, List.append_assoc, List.singleton_append,
        words_append (isWord_decimalInt field) (by simp [isSpace_blank]),
        words_cons_space isSpace_blank, ih]
      rfl

theorem words_behindName {state : Char} (hstate : isSpace state = false) (fields : List ℤ)
    (utime stime : UInt64) (further : List Text) :
    words (behindName state fields utime stime further).tail =
      [state] :: (fields.map decimalInt ++ decimal utime.toNat :: decimal stime.toNat ::
        words (further.flatMap fun field ↦ ' ' :: field)) := by
  have hword : IsWord [state] := by simp [IsWord, hstate]
  have hfurther := delimited_flatMap_blank further
  calc
    words (behindName state fields utime stime further).tail
        = [state] :: words (fields.flatMap (fun field ↦ decimalInt field ++ [' ']) ++
            (decimal utime.toNat ++ ' ' :: (decimal stime.toNat ++
              further.flatMap (fun field ↦ ' ' :: field)))) := by
          rw [behindName, List.tail_cons, ← List.singleton_append,
            words_append hword (by simp [isSpace_blank]),
            words_cons_space isSpace_blank]
    _ = [state] :: (fields.map decimalInt ++ decimal utime.toNat :: decimal stime.toNat ::
          words (further.flatMap fun field ↦ ' ' :: field)) := by
          rw [words_fields, words_append (isWord_decimal _) (by simp [isSpace_blank]),
            words_cons_space isSpace_blank, words_append (isWord_decimal _) hfurther]

theorem isSpace_of_isAlpha {c : Char} (h : c.isAlpha = true) : isSpace c = false := by
  have hlow : ∀ n < 33, (Char.ofNat n).isAlpha = false := by decide
  by_contra hspace
  have hcode : c.toNat < 33 := by
    have hblank : c ≠ ' ' → 9 ≤ c.toNat ∧ c.toNat ≤ 13 := by simpa [isSpace] using hspace
    by_cases heq : c = ' '
    · subst heq
      decide
    · have hrange := hblank heq
      omega
  have hfalse := hlow c.toNat hcode
  rw [Char.ofNat_toNat, h] at hfalse
  cases hfalse

theorem stoull_decimal (n : UInt64) : stoull (decimal n.toNat) = .ok n := by
  rw [stoull, stoul_decimal n.toNat_lt, UInt64.ofNat_toNat]

/-- Ten fields behind the state come the two counters. -/
theorem readTicks_fields (state : Text) {fields : List ℤ} (hfields : fields.length = 10)
    (utime stime : UInt64) (further : List Text) :
    readTicks 0 0 0 (state :: (fields.map decimalInt ++ decimal utime.toNat ::
      decimal stime.toNat :: further)) = .ok (utime, stime) := by
  have hlength : (fields.map decimalInt).length = 10 := by simpa using hfields
  have hutime : ticksAt (fields.map decimalInt ++ decimal utime.toNat :: decimal stime.toNat ::
      further) 10 0 = .ok utime := by
    rw [ticksAt, List.getElem?_append_right (by omega), hlength]
    exact stoull_decimal utime
  have hstime : ticksAt (fields.map decimalInt ++ decimal utime.toNat :: decimal stime.toNat ::
      further) 11 0 = .ok stime := by
    rw [ticksAt, List.getElem?_append_right (by omega), hlength]
    exact stoull_decimal stime
  rw [readTicks_eq (Nat.zero_le _)]
  simp only [kUtimeTokenIndex, kStimeTokenIndex, Nat.sub_zero, ticksAt_cons_succ, hutime, hstime]
  rfl

/-- The line of the kernel is read exactly: the name is whatever stands in the
outermost parentheses, and the ticks are the sum of the two counters. -/
theorem readProcessTimes_statLine (pid : Int32) (comm : Text) (hcomm : '\n' ∉ comm)
    (state : Char) (hstate : state.isAlpha = true) (fields : List ℤ)
    (hfields : fields.length = 10) (utime stime : UInt64) (further : List Text)
    (hfurther : ∀ field ∈ further, ')' ∉ field ∧ '\n' ∉ field) :
    readProcessTimes (some (statLine pid comm state fields utime stime further)) =
      .ok (some ⟨comm, utime + stime⟩) := by
  have hline := bracketed_statLine pid hcomm hstate fields utime stime hfurther
  have hremainder : substr (behindName state fields utime stime further) 1 =
      .ok (behindName state fields utime stime further).tail := by
    simp [substr, behindName]
  have hticks := readTicks_fields [state] hfields utime stime
    (words (further.flatMap fun field ↦ ' ' :: field))
  rw [← words_behindName (isSpace_of_isAlpha hstate)] at hticks
  rw [readProcessTimes, hline.parseStatLine_eq, hremainder]
  simp only [bind, Except.bind, hticks]
  rfl

theorem readProcessTimes_statLine_sample :
    readProcessTimes (some (statLine 7 "a) (b".toList 'S' [1, 7, 7, 0, -1, 0, 0, 0, 0, 0] 40 2
      [['2', '0']])) = .ok (some ⟨"a) (b".toList, 42⟩) :=
  readProcessTimes_statLine 7 "a) (b".toList (by decide) 'S' (by decide)
    [1, 7, 7, 0, -1, 0, 0, 0, 0, 0] rfl 40 2 [['2', '0']]
    (List.forall_mem_singleton.mpr (by decide))

end BetterCpu.ProcessManager
