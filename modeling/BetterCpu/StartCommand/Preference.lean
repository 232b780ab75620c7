import BetterCpu.StartCommand.Restoration

/-!
# The energy performance preference

A preference is backed up as the number that `std::stoi` reads, and one without
a number is not backed up at all.  The load policy writes numbers, so a named
preference is gone after its first write.
-/

namespace BetterCpu

open Text

/-! ## What the attribute shows while the engine runs -/

/-- Once a write of the preference was accepted, the attribute shows a number. -/
def World.TunedPreference (cpu : Int32) (w : World) : Prop :=
  (∃ event ∈ w.writes, event.attr = .energyPerformancePreference cpu ∧
      event.answer = .accepted) →
    ∃ epp : Int32, w.files (.energyPerformancePreference cpu) =
      some (decimalInt epp.toInt ++ ['\n'])

theorem World.Writes.tunedPreference {targets : List Attr} {w w' : World} {cpu : Int32}
    (h : World.Writes targets w w') (hnot : .energyPerformancePreference cpu ∉ targets)
    (hw : w.TunedPreference cpu) : w'.TunedPreference cpu := by
  rintro ⟨event, hevent, hattr, haccepted⟩
  obtain ⟨events, hlog, hmem⟩ := h.log
  rw [hlog, List.mem_append] at hevent
  rcases hevent with hold | hnew
  · obtain ⟨epp, hepp⟩ := hw ⟨event, hold, hattr, haccepted⟩
    exact ⟨epp, (h.frame _ hnot).trans hepp⟩
  · exact absurd (hattr ▸ hmem event hnew) hnot

theorem World.TunedPreference.setEpp {k : Kernel} {cpu : Int32} {w : World}
    (hw : w.TunedPreference cpu) (epp : Int32) :
    (Governor.setEpp k cpu epp w).2.TunedPreference cpu := by
  rintro ⟨event, hevent, hattr, haccepted⟩
  simp only [Governor.setEpp, World.writeValue] at hevent ⊢
  cases hanswer : w.answer k (.energyPerformancePreference cpu) (decimalInt epp.toInt) with
  | accepted => exact ⟨epp, World.flush_files_self (isWord_decimalInt _).1⟩
  | refusedAtOpen | refusedAtClose =>
      rw [hanswer, World.flush, List.mem_append, List.mem_singleton] at hevent
      rcases hevent with hold | rfl
      · rw [World.flush_files_of_not_accepted (by simp)]
        exact hw ⟨event, hold, hattr, haccepted⟩
      · cases haccepted

theorem epp_mem_targets {action : Action} {cpu : Int32}
    (h : .energyPerformancePreference cpu ∈ action.targets) :
    ∃ epp, action = .setEpp cpu epp := by
  cases Action.mayWrite_of_mem_targets h with
  | epp _ eppValue => exact ⟨eppValue, rfl⟩

theorem tunedPreference_run {k : Kernel} {cpu : Int32} (action : Action) {s : Session}
    (hs : s.world.TunedPreference cpu) : (action.run k s).world.TunedPreference cpu := by
  by_cases htarget : .energyPerformancePreference cpu ∈ action.targets
  · obtain ⟨epp, rfl⟩ := epp_mem_targets htarget
    simp only [Action.run, Session.setEppIfChanged, setIfChanged, setAndRecord]
    split
    · exact hs
    · exact hs.setEpp epp
  · exact (Action.run_writes k action s).tunedPreference htarget hs

/-! ## What the restore block leaves behind -/

theorem files_writeBack_of_notMem (k : Kernel) {a : Attr} {entries : List (Attr × Text)}
    (ha : a ∉ entries.map Prod.fst) (w : World) :
    (writeBack k entries w).files a = w.files a := by
  induction entries generalizing w with
  | nil => rfl
  | cons entry entries ih =>
      simp only [List.map_cons, List.mem_cons, not_or] at ha
      rw [writeBack_cons, ih ha.2, World.writeValue_files_of_ne k entry.2 w ha.1]

theorem files_writeBack {k : Kernel} {a : Attr} {value : Text}
    (hk : ∀ count files value, k count files a value = .accepted) (hvalue : value ≠ [])
    {entries : List (Attr × Text)}
    (hentries : ∀ entry ∈ entries, entry.1 = a → entry.2 = value) {w : World}
    (hpresent : (w.files a).isSome = true)
    (ha : a ∈ entries.map Prod.fst ∨ w.files a = some (a.shown value)) :
    (writeBack k entries w).files a = some (a.shown value) := by
  induction entries generalizing w with
  | nil => simpa using ha
  | cons entry entries ih =>
      rw [writeBack_cons]
      refine ih (fun e he ↦ hentries e (by simp [he]))
        ((World.isSome_writeValue_files k _ _ _ _).trans hpresent) ?_
      by_cases hself : entry.1 = a
      · right
        have hanswer : w.answer k a value = .accepted := by simp [World.answer, hpresent, hk]
        rw [hentries entry (by simp) hself, hself, World.writeValue, hanswer]
        exact World.flush_files_self hvalue
      · rcases ha with ha | ha
        · exact Or.inl (by simpa [Ne.symm hself] using ha)
        · exact Or.inr ((World.writeValue_files_of_ne k _ w (Ne.symm hself)).trans ha)

theorem currentEpp_of_shown {files : Sysfs} {cpu epp : Int32}
    (h : files (.energyPerformancePreference cpu) = some (decimalInt epp.toInt ++ ['\n'])) :
    Governor.currentEpp files cpu = some epp := by
  simp [Governor.currentEpp, h, IStream.stoi_word_line, Except.toOption]

theorem epp_of_mem_entries {m : Machine} {files : Sysfs} {entry : Attr × Text} {cpu : Int32}
    (hentry : entry ∈ (captureCurrentState m files).entries)
    (hattr : entry.1 = .energyPerformancePreference cpu) :
    ∃ epp, Governor.currentEpp files cpu = some epp ∧ entry.2 = decimalInt epp.toInt := by
  cases captured_of_mem_entries hentry with
  | epp cpuId epp hepp =>
      obtain rfl : cpuId = cpu := by simpa using hattr
      exact ⟨epp, hepp, rfl⟩
  | _ => simp at hattr

/-- A preference that was backed up as a number is brought back as its
rendering. -/
theorem files_restored_of_number {k : Kernel} {m : Machine} {files : Sysfs} {cpu epp : Int32}
    (hcpu : cpu ∈ m.cpuIds)
    (hk : ∀ count files value,
      k count files (.energyPerformancePreference cpu) value = .accepted)
    (hepp : Governor.currentEpp files cpu = some epp) {w : World}
    (hpresent : (w.files (.energyPerformancePreference cpu)).isSome = true) :
    (restoreBlock k (some (captureCurrentState m files)) w).files
      (.energyPerformancePreference cpu) = some (decimalInt epp.toInt ++ ['\n']) := by
  rw [restoreBlock_eq]
  refine files_writeBack hk (isWord_decimalInt _).1 (fun entry hentry hattr ↦ ?_) hpresent
    (Or.inl (mem_entries_iff.mpr ⟨epp_mem_knobs_iff.mpr hcpu, ?_⟩))
  · obtain ⟨epp', hepp', hvalue⟩ := epp_of_mem_entries hentry hattr
    rw [hvalue, Option.some.inj (hepp.symm.trans hepp')]
  · rintro _ ⟨⟩
    simp [hepp]

/-- One that was not backed up stays as it is. -/
theorem files_restored_of_none {k : Kernel} {m : Machine} {files : Sysfs} {cpu : Int32}
    (hepp : Governor.currentEpp files cpu = none) (w : World) :
    (restoreBlock k (some (captureCurrentState m files)) w).files
      (.energyPerformancePreference cpu) = w.files (.energyPerformancePreference cpu) := by
  rw [restoreBlock_eq]
  apply files_writeBack_of_notMem
  rw [mem_entries_iff]
  rintro ⟨-, hsome⟩
  simpa [hepp] using hsome cpu rfl

theorem run_tunedPreference (k : Kernel) (blocks : BlockLayer) (inputs : List TickInput)
    (cores : List CpuCoreInfo) (files : Sysfs) (cpu : Int32) :
    (Session.run k blocks inputs ⟨PolicyEngine.new cores, ⟨files, [], []⟩⟩).world.TunedPreference
      cpu := by
  rw [Action.run_eq]
  apply Action.runAll_invariant (P := fun s ↦ s.world.TunedPreference cpu)
  · exact fun action _ t ht ↦ tunedPreference_run action ht
  · rintro ⟨event, hevent, -⟩
    simp at hevent

/-- On a machine whose capture is decodable, for every run that has written the
preference of a core at least once: the start command brings back what the
attribute showed before if and only if that was the decimal rendering of an
`int`. -/
theorem preference_restored_iff (kTune kRestore : Kernel) (m : Machine) (blocks : BlockLayer)
    (inputs : List TickInput) (files : Sysfs) (cpu : Int32) (hcpu : cpu ∈ m.cpuIds)
    (hdecodable : (captureCurrentState m files).Decodable)
    (haccepts : ∀ count files value,
      kRestore count files (.energyPerformancePreference cpu) value = .accepted)
    (htuned : ∃ event ∈ (Session.run kTune blocks inputs
        ⟨PolicyEngine.new m.cores, ⟨files, [], []⟩⟩).world.writes,
      event.attr = .energyPerformancePreference cpu ∧ event.answer = .accepted) :
    ∃ w, startCommand kTune kRestore m blocks inputs ⟨files, [], []⟩ = .ok w ∧
      (w.files (.energyPerformancePreference cpu) = files (.energyPerformancePreference cpu) ↔
        ∃ epp : Int32, files (.energyPerformancePreference cpu) =
          some (decimalInt epp.toInt ++ ['\n'])) := by
  have hload := (StateBackup.load_save_eq_iff _ (captureCurrentState_wellFormed m files)).mpr
    hdecodable
  refine ⟨_, by rw [startCommand, hload]; rfl, ?_⟩
  cases hepp : Governor.currentEpp files cpu with
  | some epp =>
      have hfile : (files (.energyPerformancePreference cpu)).isSome = true := by
        by_contra habsent
        simp [Governor.currentEpp, Option.not_isSome_iff_eq_none.mp habsent] at hepp
      rw [files_restored_of_number hcpu haccepts hepp (by
        rw [Action.run_eq, (Action.runAll_writes kTune _ _).isSome_eq]
        exact hfile)]
      constructor
      · exact fun h ↦ ⟨epp, h.symm⟩
      · rintro ⟨epp', hepp'⟩
        rw [hepp', Option.some.inj (hepp.symm.trans (currentEpp_of_shown hepp'))]
  | none =>
      obtain ⟨epp, hshown⟩ := run_tunedPreference kTune blocks inputs m.cores files cpu htuned
      rw [files_restored_of_none hepp, hshown]
      constructor
      · exact fun h ↦ ⟨epp, h.symm⟩
      · rintro ⟨epp', hepp'⟩
        rw [currentEpp_of_shown hepp'] at hepp
        cases hepp

theorem preference_restored_sample :
    ∃ w, startCommand .willing .willing sampleMachine Session.noBlocks [sampleTick]
        ⟨Session.sampleFiles, [], []⟩ = .ok w ∧
      w.files (.energyPerformancePreference 0) =
        Session.sampleFiles (.energyPerformancePreference 0) := by
  obtain ⟨w, hw, hiff⟩ := preference_restored_iff .willing .willing sampleMachine
    Session.noBlocks [sampleTick] Session.sampleFiles 0 (by decide)
    sampleMachine_capturable.decodable (fun _ _ _ ↦ rfl)
    ⟨⟨.energyPerformancePreference 0, decimalInt 0, .accepted⟩, by decide +kernel, rfl, rfl⟩
  exact ⟨w, hw, hiff.mpr ⟨128, rfl⟩⟩

def balancePerformance : Text :=
  ['b', 'a', 'l', 'a', 'n', 'c', 'e', '_', 'p', 'e', 'r', 'f', 'o', 'r', 'm', 'a', 'n', 'c', 'e']

def namedFiles : Sysfs :=
  Function.update Session.sampleFiles (.energyPerformancePreference 0)
    (some (balancePerformance ++ ['\n']))

/-- A tick writes 0 over `balance_performance`, and the restore block leaves
it. -/
theorem not_preference_restored_named :
    (∃ event ∈ (Session.run .willing Session.noBlocks [sampleTick]
        ⟨PolicyEngine.new sampleMachine.cores, ⟨namedFiles, [], []⟩⟩).world.writes,
      event.attr = .energyPerformancePreference 0 ∧ event.answer = .accepted) ∧
    ∃ w, startCommand .willing .willing sampleMachine Session.noBlocks [sampleTick]
        ⟨namedFiles, [], []⟩ = .ok w ∧
      w.files (.energyPerformancePreference 0) ≠ namedFiles (.energyPerformancePreference 0) := by
  refine ⟨⟨⟨.energyPerformancePreference 0, decimalInt 0, .accepted⟩, ?_, rfl, rfl⟩, _, rfl, ?_⟩
  · decide +kernel
  · decide +kernel

end BetterCpu
