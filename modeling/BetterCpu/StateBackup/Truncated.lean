import BetterCpu.Library.Truncation
import BetterCpu.StateBackup.RoundTrip

/-!
# Loading a truncated backup

The decoder never looks at the state of the stream.  Behind the end of a
truncated file it finds zeros, empty lists and empty words, so the state is
loaded only if the cut is behind the last field that is none of these.
-/

namespace BetterCpu.StateBackup

open Text Truncation SystemStateBackup

/-! ## The parts of the text -/

def settingSegment (value : Int32) : Segment :=
  ⟨saveInt value, if value = 0 then [] else decimalInt value.toInt⟩

def countSegment (count : ℕ) : Segment :=
  ⟨decimal count ++ ['\n'], if count = 0 then [] else decimal count⟩

def cpuSegment (state : CpuFreqState) : Segment :=
  ⟨saveCpu state, (saveCpu state).dropLast⟩

def schedulerSegment (entry : Text × Text) : Segment :=
  ⟨saveScheduler entry, (saveScheduler entry).dropLast⟩

def segments (state : SystemStateBackup) : List Segment :=
  settingSegment state.swappiness :: settingSegment state.vfsCachePressure ::
    settingSegment state.dirtyRatio :: settingSegment state.dirtyBackgroundRatio ::
      (countSegment state.cpuFreqStates.length :: state.cpuFreqStates.map cpuSegment ++
        countSegment state.ioSchedulers.length :: state.ioSchedulers.map schedulerSegment)

theorem texts_segments (state : SystemStateBackup) : texts (segments state) = save state := by
  simp [texts, segments, save, settingSegment, countSegment, cpuSegment, schedulerSegment,
    List.flatMap_map]

/-! ## The line of a core -/

def extractEpp : Decoder (Option Int32) := fun s ↦ do
  let eppValue ← loadEpp (s.word []).1
  return (eppValue, (s.word []).2)

theorem eq_of_loadEpp_isPrefix {epp : Option Int32} {p : Text} (hp : p <+: eppToken epp)
    (hnil : p ≠ []) (h : loadEpp p = .ok epp) : p = eppToken epp := by
  unfold loadEpp at h
  split at h
  · next hne =>
      obtain ⟨epp, hstoi, rfl⟩ : ∃ value, stoi p = .ok value ∧ some value = epp := by
        cases hstoi : stoi p with
        | error e => simp [hstoi, Except.map] at h
        | ok value => exact ⟨value, rfl, by simpa [hstoi, Except.map] using h⟩
      exact eq_of_stoi_isPrefix hp hnil hstoi
  · next heq =>
      cases h
      exact not_not.mp heq

theorem readsBack_epp (epp : Option Int32) :
    ReadsBack extractEpp epp (eppToken epp ++ ['\n']) (eppToken epp) := by
  have hword := isWord_eppToken epp
  apply ReadsBack.of_token isSpace_newline (skip_none isSpace_newline) rfl (Or.inl rfl)
  · intro ws r hws hr
    rw [extractEpp, IStream.word_of_word ws [] hws hword hr]
    simp only [loadEpp_eppToken]
    rfl
  · exact fun _ _ hnil ↦ absurd hnil hword.1
  · intro s s' hs hD
    simp only [extractEpp, IStream.word, hs] at hD
    cases hD
  · intro ws p s' hws hp hnil hD
    have hspaceless : Spaceless p := fun c hc ↦ hword.2 c (hp.subset hc)
    have htake := takeWord_append hspaceless delimited_nil
    rw [List.append_nil] at htake
    simp only [extractEpp, IStream.word, sentry_word_isPrefix hws hword.2 hp hnil, htake,
      bind_eq_ok_iff] at hD
    obtain ⟨value, hvalue, heq⟩ := hD
    obtain rfl : value = epp := congrArg Prod.fst (Except.ok.inj heq)
    exact eq_of_loadEpp_isPrefix hp hnil hvalue

def cpuFields (state : CpuFreqState) : Int32 × Text × UInt64 × UInt64 × Option Int32 :=
  (state.cpuId, state.governor, state.minFreqKhz, state.maxFreqKhz, state.eppValue)

def cpuOfFields (fields : Int32 × Text × UInt64 × UInt64 × Option Int32) : CpuFreqState :=
  ⟨fields.1, fields.2.1, fields.2.2.1, fields.2.2.2.1, fields.2.2.2.2⟩

def extractCpu : Decoder (Int32 × Text × UInt64 × UInt64 × Option Int32) :=
  seq (extract (IStream.int32 0)) fun _ ↦ seq (extract (IStream.word [])) fun _ ↦
    seq (extractThen id) fun _ ↦ seq (extractThen id) fun _ ↦ extractEpp

theorem loadCpu_eq : loadCpu = Truncation.map cpuOfFields extractCpu := by
  funext s
  simp only [loadCpu, Truncation.map, extractCpu, seq, extract, extractThen, extractEpp, id, bind,
    Except.bind]
  split <;> simp_all [pure, Except.pure, cpuOfFields]

def cpuSegments (state : CpuFreqState) : List Segment :=
  [⟨decimalInt state.cpuId.toInt ++ [' '],
      if state.cpuId = 0 then [] else decimalInt state.cpuId.toInt⟩,
    ⟨state.governor ++ [' '], state.governor⟩,
    ⟨decimal state.minFreqKhz.toNat ++ [' '],
      if state.minFreqKhz = 0 then [] else decimal state.minFreqKhz.toNat⟩,
    ⟨decimal state.maxFreqKhz.toNat ++ [' '],
      if state.maxFreqKhz = 0 then [] else decimal state.maxFreqKhz.toNat⟩,
    ⟨eppToken state.eppValue ++ ['\n'], eppToken state.eppValue⟩]

theorem cpuSegment_eq (state : CpuFreqState) :
    cpuSegment state = ⟨texts (cpuSegments state), required (cpuSegments state)⟩ := by
  have hepp : eppToken state.eppValue ≠ [] := (isWord_eppToken _).1
  have htext : saveCpu state = required (cpuSegments state) ++ ['\n'] := by
    simp [saveCpu, cpuSegments, required, neededBoth, hepp]
  have htexts : saveCpu state = texts (cpuSegments state) := by
    simp [saveCpu, cpuSegments, texts]
  rw [cpuSegment, ← htexts, htext, List.dropLast_concat]

theorem readsSegments_loadCpu {state : CpuFreqState} (hgov : IsWord state.governor) :
    ReadsSegments loadCpu state [cpuSegment state] := by
  have hfields : ReadsSegments extractCpu (cpuFields state) (cpuSegments state) :=
    (readsBack_int32 isSpace_blank state.cpuId).segment.seq
      ((readsBack_word isSpace_blank hgov).segment.seq
        ((readsBack_uint64 isSpace_blank state.minFreqKhz).segment.seq
          ((readsBack_uint64 isSpace_blank state.maxFreqKhz).segment.seq
            (readsBack_epp state.eppValue).segment)))
  rw [cpuSegment_eq, loadCpu_eq]
  refine (hfields.map (f := cpuOfFields) fun _ fields _ _ heq ↦ ?_).merge
  rw [cpuOfFields, cpuOfFields, CpuFreqState.mk.injEq] at heq
  simpa [cpuFields, Prod.ext_iff] using heq

/-! ## The line of a device -/

def schedulerSegments (entry : Text × Text) : List Segment :=
  [⟨entry.1 ++ [' '], entry.1⟩, ⟨entry.2 ++ ['\n'], entry.2⟩]

theorem schedulerSegment_eq {entry : Text × Text} (hsched : IsWord entry.2) :
    schedulerSegment entry =
      ⟨texts (schedulerSegments entry), required (schedulerSegments entry)⟩ := by
  have htext : saveScheduler entry = required (schedulerSegments entry) ++ ['\n'] := by
    simp [saveScheduler, schedulerSegments, required, neededBoth, hsched.1]
  have htexts : saveScheduler entry = texts (schedulerSegments entry) := by
    simp [saveScheduler, schedulerSegments, texts]
  rw [schedulerSegment, ← htexts, htext, List.dropLast_concat]

theorem readsSegments_loadScheduler {entry : Text × Text} (hdev : IsWord entry.1)
    (hsched : IsWord entry.2) :
    ReadsSegments (extract loadScheduler) entry [schedulerSegment entry] := by
  have hwords := (readsBack_word isSpace_blank hdev).segment.seq
    (E := fun _ ↦ extract (IStream.word [])) (readsBack_word isSpace_newline hsched).segment
  rw [schedulerSegment_eq hsched]
  exact hwords.merge

/-! ## Counted lists -/

/-- A count and as many elements. -/
def counted {α : Type} (after : IStream → IStream) (D : Decoder α) : Decoder (List α) :=
  Truncation.map Prod.snd (seq (extractThen after) fun count ↦ repeated D count.toNat)

theorem length_of_repeated {α : Type} {D : Decoder α} {count : ℕ} {s s' : IStream} {as : List α}
    (h : repeated D count s = .ok (as, s')) : as.length = count := by
  induction count generalizing s as with
  | zero =>
      cases h
      rfl
  | succ count ih =>
      rw [repeated_succ, map_eq_ok_iff] at h
      obtain ⟨⟨a, as⟩, hboth, rfl⟩ := h
      obtain ⟨t, -, htail⟩ := seq_eq_ok_iff.mp hboth
      rw [List.length_cons, ih htail]

theorem readsSegments_counted {α : Type} {after : IStream → IStream} {D : Decoder α}
    {segment : α → Segment} {as : List α} (hcount : as.length < 2 ^ 64)
    (hafter : ReadsBack (extractThen after) (UInt64.ofNat as.length)
      (decimal (UInt64.ofNat as.length).toNat ++ ['\n'])
      (if UInt64.ofNat as.length = 0 then [] else decimal (UInt64.ofNat as.length).toNat))
    (helements : ∀ a ∈ as, ReadsSegments D a [segment a]) :
    ReadsSegments (counted after D) as (countSegment as.length :: as.map segment) := by
  have hlength : (UInt64.ofNat as.length).toNat = as.length := UInt64.toNat_ofNat_of_lt' hcount
  have hzero : UInt64.ofNat as.length = 0 ↔ as.length = 0 := by
    rw [← UInt64.toNat_inj, hlength]
    rfl
  simp only [hlength, hzero] at hafter
  have hlist : ReadsSegments (repeated D (UInt64.ofNat as.length).toNat) as (as.map segment) := by
    rw [hlength]
    exact ReadsSegments.repeated helements
  have hboth := hafter.segment.seq (E := fun count ↦ repeated D count.toNat) hlist
  refine hboth.map fun s pair s' hpair heq ↦ ?_
  obtain ⟨t, -, hrepeated⟩ := seq_eq_ok_iff.mp hpair
  obtain ⟨count, bs⟩ := pair
  obtain rfl : bs = as := heq
  have hsame := length_of_repeated hrepeated
  rw [Prod.mk.injEq, ← UInt64.toNat_inj, hlength, hsame]
  exact ⟨rfl, rfl⟩

/-! ## The whole file -/

def fields (state : SystemStateBackup) :
    Int32 × Int32 × Int32 × Int32 × List CpuFreqState × List (Text × Text) :=
  (state.swappiness, state.vfsCachePressure, state.dirtyRatio, state.dirtyBackgroundRatio,
    state.cpuFreqStates, state.ioSchedulers)

def extractState : Decoder
    (Int32 × Int32 × Int32 × Int32 × List CpuFreqState × List (Text × Text)) :=
  seq (extract (IStream.int32 0)) fun _ ↦ seq (extract (IStream.int32 0)) fun _ ↦
    seq (extract (IStream.int32 0)) fun _ ↦ seq (extract (IStream.int32 0)) fun _ ↦
      seq (counted id loadCpu) fun _ ↦ counted IStream.ignore (extract loadScheduler)

theorem repeated_loadCpu (count : ℕ) : repeated loadCpu count = loadCpus count := by
  induction count with
  | zero => rfl
  | succ count ih =>
      funext s
      simp only [repeated, loadCpus, ih]

theorem repeated_loadScheduler (count : ℕ) (s : IStream) :
    ∃ s', repeated (extract loadScheduler) count s = .ok (loadSchedulers count s, s') := by
  induction count generalizing s with
  | zero => exact ⟨s, rfl⟩
  | succ count ih =>
      obtain ⟨s', hs'⟩ := ih (loadScheduler s).2
      refine ⟨s', ?_⟩
      simp only [repeated, extract, loadSchedulers, bind, Except.bind] at hs' ⊢
      rw [hs']
      rfl

def stateOfFields
    (fields : Int32 × Int32 × Int32 × Int32 × List CpuFreqState × List (Text × Text)) :
    SystemStateBackup :=
  ⟨fields.2.2.2.2.1, fields.1, fields.2.1, fields.2.2.1, fields.2.2.2.1, fields.2.2.2.2.2⟩

theorem load_some_eq (t : Text) :
    load (some t) = do
      let (fields, _) ← extractState (IStream.ofText t)
      return some (stateOfFields fields) := by
  simp only [load, extractState, seq, extract, counted, Truncation.map, extractThen, id, bind,
    Except.bind, repeated_loadCpu]
  cases loadCpus _ _ with
  | error e => rfl
  | ok cpus =>
      obtain ⟨s', hs'⟩ := repeated_loadScheduler (cpus.2.uint64 0).1.toNat
        (cpus.2.uint64 0).2.ignore
      simp only [pure, Except.pure, hs']
      rfl

theorem load_eq_ok_iff {t : Text} {state : SystemStateBackup} :
    load (some t) = .ok (some state) ↔
      ∃ s', extractState (IStream.ofText t) = .ok (fields state, s') := by
  rw [load_some_eq, bind_eq_ok_iff]
  constructor
  · rintro ⟨⟨loaded, s'⟩, hload, heq⟩
    obtain rfl : stateOfFields loaded = state := Option.some.inj (Except.ok.inj heq)
    exact ⟨s', hload⟩
  · rintro ⟨s', hload⟩
    exact ⟨(fields state, s'), hload, rfl⟩

theorem readsSegments_extractState {state : SystemStateBackup} (hwf : state.WellFormed)
    (hgov : ∀ cpu ∈ state.cpuFreqStates, cpu.governor ≠ [])
    (hsched : ∀ entry ∈ state.ioSchedulers, entry.2 ≠ []) :
    ReadsSegments extractState (fields state) (segments state) := by
  have hcpus : ReadsSegments (counted id loadCpu) state.cpuFreqStates
      (countSegment state.cpuFreqStates.length :: state.cpuFreqStates.map cpuSegment) :=
    readsSegments_counted hwf.cpuCount (readsBack_uint64 isSpace_newline _) fun cpu hcpu ↦
      readsSegments_loadCpu ((hwf.governors cpu hcpu).isWord (hgov cpu hcpu))
  have hios : ReadsSegments (counted IStream.ignore (extract loadScheduler)) state.ioSchedulers
      (countSegment state.ioSchedulers.length :: state.ioSchedulers.map schedulerSegment) :=
    readsSegments_counted hwf.ioCount (readsBack_uint64_ignore isSpace_newline _)
      fun entry hentry ↦ readsSegments_loadScheduler (hwf.devices entry hentry)
        ((hwf.schedulers entry hentry).isWord (hsched entry hentry))
  have hsetting (value : Int32) :
      ReadsSegments (extract (IStream.int32 0)) value [settingSegment value] :=
    (readsBack_int32 isSpace_newline value).segment
  exact (hsetting _).seq ((hsetting _).seq ((hsetting _).seq ((hsetting _).seq (hcpus.seq hios))))

/-- A truncated backup of a state whose words are not empty is loaded without
an exception and as this state if and only if it still has all of the file up
to the last field that is needed: behind it there are only line breaks, counts
of empty lists, and, before empty lists, settings that are zero. -/
theorem load_truncated_iff (state : SystemStateBackup) (hwf : state.WellFormed)
    (hgov : ∀ cpu ∈ state.cpuFreqStates, cpu.governor ≠ [])
    (hsched : ∀ entry ∈ state.ioSchedulers, entry.2 ≠ []) (p : Text) (hp : p <+: save state) :
    (load (some p) = .ok none ∨ load (some p) = .ok (some state)) ↔
      required (segments state) <+: p := by
  have hreads := readsSegments_extractState hwf hgov hsched
  rw [← texts_segments] at hp
  have hshows : Shows (IStream.ofText p) p := Shows.text p (show Blank [] by simp [Blank])
  rw [or_iff_right (load_some_ne_none p), load_eq_ok_iff]
  constructor
  · rintro ⟨s', hload⟩
    exact hreads.missing hshows hp hload
  · intro hneeded
    obtain ⟨s', hload, -⟩ := hreads.enough hshows hp hneeded
    exact ⟨s', hload⟩

/-! ## Cuts that are not noticed -/

def oneCoreBackup : SystemStateBackup where
  cpuFreqStates := [⟨0, ['p', 'o', 'w'], 800, 3000, some 128⟩]
  swappiness := 60
  vfsCachePressure := 100
  dirtyRatio := 20
  dirtyBackgroundRatio := 10
  ioSchedulers := [(['s', 'd', 'a'], ['b', 'f', 'q'])]

theorem oneCoreBackup_wellFormed : oneCoreBackup.WellFormed :=
  ⟨by decide, by decide, by decide, by decide, by decide⟩

/-- A file that ends within the preference is loaded with another preference
and without the device; one that ends before the preference throws. -/
theorem not_load_truncated_oneCore :
    (load (some ((save oneCoreBackup).take 32)) =
        .ok (some { oneCoreBackup with
          cpuFreqStates := [⟨0, ['p', 'o', 'w'], 800, 3000, some 12⟩]
          ioSchedulers := [] }) ∧
      load (some ((save oneCoreBackup).take 30)) = .error .invalidArgument) ∧
    ¬ (oneCoreBackup.WellFormed →
        (∀ cpu ∈ oneCoreBackup.cpuFreqStates, cpu.governor ≠ []) →
        (∀ entry ∈ oneCoreBackup.ioSchedulers, entry.2 ≠ []) →
        ∀ p, p <+: save oneCoreBackup → p ≠ save oneCoreBackup →
          load (some p) = .ok none ∨ load (some p) = .ok (some oneCoreBackup)) := by
  refine ⟨⟨by decide +kernel, by decide +kernel⟩, fun h ↦ ?_⟩
  have hcut := h oneCoreBackup_wellFormed (by decide) (by decide)
    ((save oneCoreBackup).take 32) (List.take_prefix _ _) (by decide +kernel)
  revert hcut
  decide +kernel

theorem load_truncated_oneCore :
    load (some ((save oneCoreBackup).dropLast)) = .ok none ∨
      load (some ((save oneCoreBackup).dropLast)) = .ok (some oneCoreBackup) :=
  (load_truncated_iff oneCoreBackup oneCoreBackup_wellFormed (by decide) (by decide) _
    (List.dropLast_prefix _)).mpr (by decide +kernel)

end BetterCpu.StateBackup
