import BetterCpu.StartCommand.Restoration

/-!
# The stop path on an incomplete machine

A core without cpufreq files or a device without an active scheduler is
captured with an empty word, which the decoder cannot see.
-/

namespace BetterCpu

open Text

/-- The backup of the machine loads without an exception, and the restore
block loops over exactly the captured cores and devices. -/
def RestoresCapture (m : Machine) (files : Sysfs) : Prop :=
  let captured := captureCurrentState m files
  ∃ savedState, StateBackup.load (some (StateBackup.save captured)) = .ok (some savedState) ∧
    savedState.cpuFreqStates = captured.cpuFreqStates ∧
    savedState.ioSchedulers = captured.ioSchedulers

theorem restoresCapture_iff_decodable (m : Machine) (files : Sysfs) :
    RestoresCapture m files ↔ (captureCurrentState m files).Decodable := by
  have hwf := captureCurrentState_wellFormed m files
  rw [← StateBackup.load_save_eq_iff _ hwf]
  constructor
  · rintro ⟨savedState, hload, hcpus, hio⟩
    rw [hload, StateBackup.eq_of_load_save hwf hload hcpus hio]
  · exact fun hload ↦ ⟨_, hload, rfl, rfl⟩

theorem currentGovernor_ne_nil_iff {files : Sysfs} {cpuId : Int32} :
    Governor.currentGovernor files cpuId ≠ [] ↔
      ∃ t, files (.scalingGovernor cpuId) = some t ∧ words t ≠ [] := by
  cases hfile : files (.scalingGovernor cpuId) with
  | none => simp [Governor.currentGovernor, hfile]
  | some t =>
      simp only [Governor.currentGovernor, hfile, IStream.ofText, IStream.word_eq_words,
        Option.some.injEq, exists_eq_left']
      cases hwords : words t with
      | nil => simp
      | cons token tokens =>
          have hword : IsWord token := isWord_of_mem_words (by rw [hwords]; simp)
          simpa using hword.1

theorem currentScheduler_ne_nil_iff {files : Sysfs} {device : Text} :
    IoStorage.currentScheduler files device ≠ [] ↔
      ∃ t, files (.queueScheduler device) = some t ∧ IoStorage.bracketed t ≠ [] := by
  cases hfile : files (.queueScheduler device) <;>
    simp [IoStorage.currentScheduler, hfile]

/-- The stop path restores what was captured if and only if every online core
shows a governor, and every device except possibly the last an active
scheduler. -/
theorem restoresCapture_iff (m : Machine) (files : Sysfs) :
    RestoresCapture m files ↔
      (∀ cpuId ∈ m.cpuIds, ∃ t, files (.scalingGovernor cpuId) = some t ∧ words t ≠ []) ∧
      ∀ device ∈ m.devices.dropLast, ∃ t, files (.queueScheduler device) = some t ∧
        IoStorage.bracketed t ≠ [] := by
  simp only [restoresCapture_iff_decodable, SystemStateBackup.Decodable, captureCurrentState,
    List.forall_mem_map, Governor.snapshot, ← List.map_dropLast, currentGovernor_ne_nil_iff,
    currentScheduler_ne_nil_iff]

/-- A core without cpufreq files: the field of the preference is read past the
end of the line, and `std::stoi` throws. -/
theorem not_restoresCapture_without_cpufreq :
    StateBackup.load (some (StateBackup.save (captureCurrentState sampleMachine fun _ ↦ none))) =
        .error .invalidArgument ∧
      ¬ RestoresCapture sampleMachine fun _ ↦ none := by
  have hload : StateBackup.load
      (some (StateBackup.save (captureCurrentState sampleMachine fun _ ↦ none))) =
        .error .invalidArgument := by rfl
  refine ⟨hload, ?_⟩
  rintro ⟨savedState, hok, -⟩
  rw [hload] at hok
  cases hok

end BetterCpu
