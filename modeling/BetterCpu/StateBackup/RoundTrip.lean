import BetterCpu.StateBackup

/-!
# The round trip of the backup format

Loading is token based, so an empty word is invisible to it and everything
behind it shifts.  The states that survive are exactly the `Decodable` ones:
no governor is empty, and no scheduler except possibly the very last.
-/

namespace BetterCpu

open Text

namespace SystemStateBackup

/-- The words of the state contain no white space, its devices have names, and
its two sizes are values of `size_t`. -/
structure WellFormed (state : SystemStateBackup) : Prop where
  governors : ∀ cpu ∈ state.cpuFreqStates, Spaceless cpu.governor
  schedulers : ∀ entry ∈ state.ioSchedulers, Spaceless entry.2
  devices : ∀ entry ∈ state.ioSchedulers, IsWord entry.1
  cpuCount : state.cpuFreqStates.length < 2 ^ 64
  ioCount : state.ioSchedulers.length < 2 ^ 64

/-- Every governor is non-empty, and every scheduler except possibly that of
the last device. -/
def Decodable (state : SystemStateBackup) : Prop :=
  (∀ cpu ∈ state.cpuFreqStates, cpu.governor ≠ []) ∧
    ∀ entry ∈ state.ioSchedulers.dropLast, entry.2 ≠ []

end SystemStateBackup

namespace StateBackup

open SystemStateBackup

/-! ## One line of a core -/

theorem isWord_eppToken (epp : Option Int32) : IsWord (eppToken epp) := by
  cases epp with
  | none => decide
  | some epp => exact isWord_decimalInt _

theorem decimalInt_ne_noneToken (z : ℤ) : decimalInt z ≠ noneToken := by
  intro h
  have hdigits := digits_scanNumber_decimalInt z (r := []) (by simp)
  rw [List.append_nil, h] at hdigits
  exact hdigits (by decide)

theorem loadEpp_eppToken (epp : Option Int32) : loadEpp (eppToken epp) = .ok epp := by
  cases epp with
  | none => simp [loadEpp, eppToken]
  | some epp =>
      have hstoi := stoi_decimalInt epp (r := []) (by simp)
      rw [List.append_nil] at hstoi
      simp [loadEpp, eppToken, decimalInt_ne_noneToken, hstoi, Except.map]

theorem loadCpu_saveCpu (ws : Text) (state : CpuFreqState) (r : Text)
    (hws : ∀ c ∈ ws, isSpace c = true) (hgov : IsWord state.governor) :
    loadCpu ⟨ws ++ (saveCpu state ++ r), false⟩ = .ok (state, ⟨'\n' :: r, false⟩) := by
  have hid := IStream.int32_of_decimalInt ws 0 state.cpuId hws
    (r := ' ' :: (state.governor ++ ' ' :: (decimal state.minFreqKhz.toNat ++
      ' ' :: (decimal state.maxFreqKhz.toNat ++
        ' ' :: (eppToken state.eppValue ++ '\n' :: r))))) (by simp [isSpace])
  have hgovernor := IStream.word_of_word [' '] [] (by simp [isSpace]) hgov
    (r := ' ' :: (decimal state.minFreqKhz.toNat ++ ' ' :: (decimal state.maxFreqKhz.toNat ++
      ' ' :: (eppToken state.eppValue ++ '\n' :: r)))) (by simp [isSpace])
  have hmin := IStream.uint64_of_decimal [' '] 0 state.minFreqKhz (by simp [isSpace])
    (r := ' ' :: (decimal state.maxFreqKhz.toNat ++
      ' ' :: (eppToken state.eppValue ++ '\n' :: r))) (by simp [isSpace])
  have hmax := IStream.uint64_of_decimal [' '] 0 state.maxFreqKhz (by simp [isSpace])
    (r := ' ' :: (eppToken state.eppValue ++ '\n' :: r)) (by simp [isSpace])
  have hepp := IStream.word_of_word [' '] [] (by simp [isSpace])
    (isWord_eppToken state.eppValue) (r := '\n' :: r) (by simp [isSpace])
  simp only [List.cons_append, List.nil_append] at hgovernor hmin hmax hepp
  simp only [loadCpu, saveCpu, List.append_assoc, List.cons_append, List.nil_append, hid,
    hgovernor, hmin, hmax, hepp, loadEpp_eppToken]
  rfl

theorem governor_of_loadCpu {s t : IStream} {loaded : CpuFreqState}
    (h : loadCpu s = .ok (loaded, t)) :
    loaded.governor = ((s.int32 0).2.word []).1 := by
  simp only [loadCpu, bind, Except.bind] at h
  split at h
  · simp at h
  · simp only [pure, Except.pure, Except.ok.injEq, Prod.mk.injEq] at h
    rw [← h.1]

/-- With an empty governor the minimum frequency is taken for it. -/
theorem governor_loadCpu_saveCpu_of_nil (ws : Text) {state loaded : CpuFreqState} (r : Text)
    {t : IStream} (hws : ∀ c ∈ ws, isSpace c = true) (hgov : state.governor = [])
    (h : loadCpu ⟨ws ++ (saveCpu state ++ r), false⟩ = .ok (loaded, t)) :
    loaded.governor = decimal state.minFreqKhz.toNat := by
  have hid := IStream.int32_of_decimalInt ws 0 state.cpuId hws
    (r := ' ' :: ' ' :: (decimal state.minFreqKhz.toNat ++
      ' ' :: (decimal state.maxFreqKhz.toNat ++
        ' ' :: (eppToken state.eppValue ++ '\n' :: r)))) (by simp [isSpace])
  have hgovernor := IStream.word_of_word [' ', ' '] [] (by simp [isSpace])
    (isWord_decimal state.minFreqKhz.toNat)
    (r := ' ' :: (decimal state.maxFreqKhz.toNat ++
      ' ' :: (eppToken state.eppValue ++ '\n' :: r))) (by simp [isSpace])
  simp only [List.cons_append, List.nil_append] at hgovernor
  rw [governor_of_loadCpu h]
  simp only [saveCpu, hgov, List.append_assoc, List.cons_append, List.nil_append, hid,
    hgovernor]

/-! ## The lines of the cores -/

theorem loadCpus_saveCpus (ws : Text) (states : List CpuFreqState) (r : Text)
    (hws : ∀ c ∈ ws, isSpace c = true) (hgov : ∀ state ∈ states, IsWord state.governor) :
    ∃ us, (∀ c ∈ us, isSpace c = true) ∧
      loadCpus states.length ⟨ws ++ (states.flatMap saveCpu ++ r), false⟩ =
        .ok (states, ⟨us ++ r, false⟩) := by
  induction states generalizing ws with
  | nil => exact ⟨ws, hws, rfl⟩
  | cons state states ih =>
      have hline := loadCpu_saveCpu ws state (states.flatMap saveCpu ++ r) hws
        (hgov state (by simp))
      obtain ⟨us, hus, hlines⟩ := ih ['\n'] (by simp [isSpace])
        fun cpu hcpu ↦ hgov cpu (by simp [hcpu])
      refine ⟨us, hus, ?_⟩
      simp only [List.cons_append, List.nil_append] at hlines
      simp only [List.length_cons, loadCpus, List.flatMap_cons, List.append_assoc, hline, bind,
        Except.bind, hlines, pure, Except.pure]

theorem governor_ne_nil_of_loadCpus (ws : Text) {states : List CpuFreqState} {r : Text}
    {t : IStream} (hws : ∀ c ∈ ws, isSpace c = true)
    (hgov : ∀ state ∈ states, Spaceless state.governor)
    (h : loadCpus states.length ⟨ws ++ (states.flatMap saveCpu ++ r), false⟩ =
      .ok (states, t)) :
    ∀ state ∈ states, state.governor ≠ [] := by
  induction states generalizing ws with
  | nil => simp
  | cons state states ih =>
      simp only [List.length_cons, loadCpus, List.flatMap_cons, List.append_assoc] at h
      by_cases hnil : state.governor = []
      · cases hline : loadCpu ⟨ws ++ (saveCpu state ++ (states.flatMap saveCpu ++ r)), false⟩ with
        | error e => simp [hline, bind, Except.bind] at h
        | ok loaded =>
            have hloaded := governor_loadCpu_saveCpu_of_nil ws _ hws hnil hline
            simp only [hline, bind, Except.bind] at h
            split at h
            · simp at h
            · simp only [pure, Except.pure, Except.ok.injEq, Prod.mk.injEq, List.cons.injEq] at h
              rw [h.1.1, hnil] at hloaded
              exact absurd hloaded.symm (decimal_ne_nil _)
      · have hword := (hgov state (by simp)).isWord hnil
        rw [loadCpu_saveCpu ws state _ hws hword] at h
        simp only [bind, Except.bind] at h
        split at h
        · simp at h
        · next loaded hlines =>
            simp only [pure, Except.pure, Except.ok.injEq, Prod.mk.injEq, List.cons.injEq,
              true_and] at h
            rw [show loaded = (states, t) from Prod.ext h.1 h.2] at hlines
            have htail := ih ['\n'] (by simp [isSpace])
              (fun cpu hcpu ↦ hgov cpu (by simp [hcpu])) hlines
            intro cpu hcpu
            rcases List.mem_cons.mp hcpu with rfl | hcpu
            · exact hnil
            · exact htail cpu hcpu

/-! ## The lines of the devices -/

theorem loadScheduler_saveScheduler (ws : Text) (entry : Text × Text) (r : Text)
    (hws : ∀ c ∈ ws, isSpace c = true) (hdev : IsWord entry.1) (hsched : IsWord entry.2) :
    loadScheduler ⟨ws ++ (saveScheduler entry ++ r), false⟩ = (entry, ⟨'\n' :: r, false⟩) := by
  have hdevice := IStream.word_of_word ws [] hws hdev
    (r := ' ' :: (entry.2 ++ '\n' :: r)) (by simp [isSpace])
  have hscheduler := IStream.word_of_word [' '] [] (by simp [isSpace]) hsched
    (r := '\n' :: r) (by simp [isSpace])
  simp only [List.cons_append, List.nil_append] at hscheduler
  simp only [loadScheduler, saveScheduler, List.append_assoc, List.cons_append, List.nil_append,
    hdevice, hscheduler]

theorem loadScheduler_saveScheduler_of_nil (ws : Text) {entry : Text × Text} (r : Text)
    (hws : ∀ c ∈ ws, isSpace c = true) (hdev : IsWord entry.1) (hsched : entry.2 = []) :
    (loadScheduler ⟨ws ++ (saveScheduler entry ++ r), false⟩).1 =
      (entry.1, (words r).headD []) := by
  have hdevice := IStream.word_of_word ws [] hws hdev
    (r := ' ' :: '\n' :: r) (by simp [isSpace])
  have hwords : words (' ' :: '\n' :: r) = words r := by
    rw [words_cons_space (by decide), words_cons_space (by decide)]
  simp only [loadScheduler, saveScheduler, hsched, List.append_assoc, List.cons_append,
    List.nil_append, hdevice, IStream.word_eq_words, hwords]

theorem words_saveScheduler (entry : Text × Text) (r : Text) (hdev : IsWord entry.1) :
    (words (saveScheduler entry ++ r)).headD [] = entry.1 := by
  rw [saveScheduler, List.append_assoc, words_append hdev (by simp [isSpace])]
  rfl

/-- The list is read back if and only if no scheduler except possibly the last
is empty. -/
theorem loadSchedulers_saveSchedulers_iff (ws : Text) {entries : List (Text × Text)}
    (hws : ∀ c ∈ ws, isSpace c = true) (hdev : ∀ entry ∈ entries, IsWord entry.1)
    (hsched : ∀ entry ∈ entries, Spaceless entry.2) :
    loadSchedulers entries.length ⟨ws ++ entries.flatMap saveScheduler, false⟩ = entries ↔
      ∀ entry ∈ entries.dropLast, entry.2 ≠ [] := by
  induction entries generalizing ws with
  | nil => simp [loadSchedulers]
  | cons entry entries ih =>
      have hdevEntry : IsWord entry.1 := hdev entry (by simp)
      simp only [List.length_cons, loadSchedulers, List.flatMap_cons, List.cons.injEq]
      by_cases hnil : entry.2 = []
      · have hhead := loadScheduler_saveScheduler_of_nil ws (entries.flatMap saveScheduler) hws
          hdevEntry hnil
        rw [hhead]
        cases entries with
        | nil =>
            have hentry : (entry.1, ([] : Text)) = entry := by rw [← hnil]
            simpa [words, loadSchedulers] using hentry
        | cons next entries =>
            -- the next device's name stands where the scheduler should be
            have hnext : IsWord next.1 := hdev next (by simp)
            rw [List.flatMap_cons, words_saveScheduler next _ hnext]
            refine iff_of_false ?_ ?_
            · rintro ⟨heq, -⟩
              exact hnext.1 (by rw [← hnil, ← heq])
            · intro hall
              exact hall entry (by simp) hnil
      · have hword := (hsched entry (by simp)).isWord hnil
        have htail := ih ['\n'] (by simp [isSpace]) (fun e he ↦ hdev e (by simp [he]))
          (fun e he ↦ hsched e (by simp [he]))
        simp only [List.cons_append, List.nil_append] at htail
        rw [loadScheduler_saveScheduler ws entry _ hws hdevEntry hword, htail]
        cases entries with
        | nil => simp
        | cons next entries => simp [hnil]

/-! ## The whole file -/

def saveIoSchedulers (state : SystemStateBackup) : Text :=
  decimal state.ioSchedulers.length ++ '\n' :: state.ioSchedulers.flatMap saveScheduler

theorem load_save (state : SystemStateBackup) (hwf : state.WellFormed) :
    load (some (save state)) =
      (loadCpus state.cpuFreqStates.length
        ⟨['\n'] ++ (state.cpuFreqStates.flatMap saveCpu ++ saveIoSchedulers state), false⟩).bind
      fun loaded ↦
        let (ioSchedulerCount, s) := loaded.2.uint64 0
        .ok (some { state with
          cpuFreqStates := loaded.1
          ioSchedulers := loadSchedulers ioSchedulerCount.toNat s.ignore }) := by
  have hcount : (UInt64.ofNat state.cpuFreqStates.length).toNat = state.cpuFreqStates.length :=
    UInt64.toNat_ofNat_of_lt' hwf.cpuCount
  have hcountWord := IStream.uint64_of_decimal ['\n'] 0
    (UInt64.ofNat state.cpuFreqStates.length) (by simp [isSpace])
    (r := '\n' :: (state.cpuFreqStates.flatMap saveCpu ++ saveIoSchedulers state))
    (by simp [isSpace])
  rw [hcount] at hcountWord
  have hint (ws : Text) (z : Int32) (r : Text) (hws : ∀ c ∈ ws, isSpace c = true) :
      IStream.int32 0 ⟨ws ++ (decimalInt z.toInt ++ '\n' :: r), false⟩ =
        (z, ⟨'\n' :: r, false⟩) :=
    IStream.int32_of_decimalInt ws 0 z hws (by simp [isSpace])
  have hfirst := fun z r ↦ hint [] z r (by simp)
  have hnext := fun z r ↦ hint ['\n'] z r (by simp [isSpace])
  simp only [List.cons_append, List.nil_append] at hfirst hnext hcountWord
  simp only [load, save, saveInt, IStream.ofText, List.append_assoc, List.cons_append,
    List.nil_append, hfirst, hnext, saveIoSchedulers] at hcountWord ⊢
  simp only [hcountWord, hcount]
  rfl

theorem loadSchedulers_saveIoSchedulers (us : Text) (state : SystemStateBackup)
    (hus : ∀ c ∈ us, isSpace c = true) (hwf : state.WellFormed) :
    let (count, s) := IStream.uint64 0 ⟨us ++ saveIoSchedulers state, false⟩
    loadSchedulers count.toNat s.ignore =
      loadSchedulers state.ioSchedulers.length
        ⟨[] ++ state.ioSchedulers.flatMap saveScheduler, false⟩ := by
  have hcount : (UInt64.ofNat state.ioSchedulers.length).toNat = state.ioSchedulers.length :=
    UInt64.toNat_ofNat_of_lt' hwf.ioCount
  have hcountWord := IStream.uint64_of_decimal us 0
    (UInt64.ofNat state.ioSchedulers.length) hus
    (r := '\n' :: state.ioSchedulers.flatMap saveScheduler) (by simp [isSpace])
  rw [hcount] at hcountWord
  simp only [saveIoSchedulers, hcountWord, hcount, IStream.ignore, Bool.false_eq_true, if_false,
    List.tail_cons, List.nil_append]

theorem load_save_eq_iff (state : SystemStateBackup) (hwf : state.WellFormed) :
    load (some (save state)) = .ok (some state) ↔ state.Decodable := by
  rw [load_save state hwf]
  constructor
  · intro h
    cases hcpus : loadCpus state.cpuFreqStates.length
        ⟨['\n'] ++ (state.cpuFreqStates.flatMap saveCpu ++ saveIoSchedulers state), false⟩ with
    | error e => simp only [hcpus, Except.bind, reduceCtorEq] at h
    | ok loaded =>
        obtain ⟨cpus, s⟩ := loaded
        simp only [hcpus, Except.bind, Except.ok.injEq, Option.some.injEq] at h
        obtain rfl : cpus = state.cpuFreqStates := congrArg cpuFreqStates h
        have hgov := governor_ne_nil_of_loadCpus ['\n'] (by simp [isSpace]) hwf.governors hcpus
        refine ⟨hgov, ?_⟩
        obtain ⟨us, hus, hlines⟩ := loadCpus_saveCpus ['\n'] state.cpuFreqStates
          (saveIoSchedulers state) (by simp [isSpace])
          fun cpu hcpu ↦ (hwf.governors cpu hcpu).isWord (hgov cpu hcpu)
        rw [hlines, Except.ok.injEq, Prod.mk.injEq] at hcpus
        have hio := congrArg ioSchedulers h
        simp only [← hcpus.2, loadSchedulers_saveIoSchedulers us state hus hwf] at hio
        exact (loadSchedulers_saveSchedulers_iff [] (by simp) hwf.devices hwf.schedulers).mp hio
  · rintro ⟨hgov, hsched⟩
    obtain ⟨us, hus, hlines⟩ := loadCpus_saveCpus ['\n'] state.cpuFreqStates
      (saveIoSchedulers state) (by simp [isSpace])
      fun cpu hcpu ↦ (hwf.governors cpu hcpu).isWord (hgov cpu hcpu)
    have hio := loadSchedulers_saveIoSchedulers us state hus hwf
    rw [(loadSchedulers_saveSchedulers_iff [] (by simp) hwf.devices hwf.schedulers).mpr hsched]
      at hio
    simp only [hlines, Except.bind, hio]

theorem eq_of_load_save {state loaded : SystemStateBackup} (hwf : state.WellFormed)
    (h : load (some (save state)) = .ok (some loaded))
    (hcpus : loaded.cpuFreqStates = state.cpuFreqStates)
    (hio : loaded.ioSchedulers = state.ioSchedulers) : loaded = state := by
  rw [load_save state hwf] at h
  cases hlines : loadCpus state.cpuFreqStates.length
      ⟨['\n'] ++ (state.cpuFreqStates.flatMap saveCpu ++ saveIoSchedulers state), false⟩ with
  | error e => simp only [hlines, Except.bind, reduceCtorEq] at h
  | ok lines =>
      simp only [hlines, Except.bind, Except.ok.injEq, Option.some.injEq] at h
      subst h
      simp only at hcpus hio
      rw [hcpus, hio]

theorem load_some_ne_none (t : Text) : load (some t) ≠ .ok none := by
  intro h
  simp only [load, bind, Except.bind] at h
  split at h
  · simp at h
  · simp [pure, Except.pure] at h

/-- The exact domain of the round trip: outside it loading throws or yields a
different state. -/
theorem roundTrip_iff_decodable (state : SystemStateBackup) (hwf : state.WellFormed) :
    (load (some (save state)) = .ok (some state) ↔ state.Decodable) ∧
      (¬ state.Decodable →
        (∃ e, load (some (save state)) = .error e) ∨
          ∃ other, load (some (save state)) = .ok (some other) ∧ other ≠ state) := by
  refine ⟨load_save_eq_iff state hwf, fun hbad ↦ ?_⟩
  cases hload : load (some (save state)) with
  | error e => exact Or.inl ⟨e, rfl⟩
  | ok loaded =>
      cases loaded with
      | none => exact absurd hload (load_some_ne_none _)
      | some other =>
          refine Or.inr ⟨other, rfl, ?_⟩
          rintro rfl
          exact hbad ((load_save_eq_iff other hwf).mp hload)

def sampleBackup : SystemStateBackup where
  cpuFreqStates :=
    [⟨0, ['p', 'o', 'w'], 800, 3000, some 128⟩, ⟨1, ['p', 'o', 'w'], 800, 3000, none⟩]
  swappiness := 60
  vfsCachePressure := 100
  dirtyRatio := 20
  dirtyBackgroundRatio := -1
  ioSchedulers := [(['s', 'd', 'a'], ['b', 'f', 'q']), (['d', 'm'], [])]

theorem sampleBackup_wellFormed : sampleBackup.WellFormed :=
  ⟨by decide, by decide, by decide, by decide, by decide⟩

theorem roundTrip_sampleBackup :
    load (some (save sampleBackup)) = .ok (some sampleBackup) :=
  (roundTrip_iff_decodable sampleBackup sampleBackup_wellFormed).1.mpr
    ⟨by decide, by decide⟩

end StateBackup
end BetterCpu
