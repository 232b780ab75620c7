import BetterCpu.IoStorage
import BetterCpu.Governor

/-!
# The value of an attribute

What the read functions make of the text an attribute shows, as one function
on all attributes.  A preference is the number it denotes, or its name.
-/

namespace BetterCpu

open Text

inductive Reading where
  | word (value : Text)
  | number (value : UInt64)
  | integer (value : Int32)
  deriving DecidableEq

def Attr.reading : Attr → Text → Reading
  | .scalingGovernor _, t => .word ((IStream.ofText t).word []).1
  | .scalingMinFreq _, t => .number ((IStream.ofText t).uint64 0).1
  | .scalingMaxFreq _, t => .number ((IStream.ofText t).uint64 0).1
  | .energyPerformancePreference _, t =>
      match stoi ((IStream.ofText t).word []).1 with
      | .ok epp => .integer epp
      | .error _ => .word ((IStream.ofText t).word []).1
  | .swappiness, t => .integer (readInt 60 (some t))
  | .vfsCachePressure, t => .integer (readInt 100 (some t))
  | .dirtyRatio, t => .integer (readInt 0 (some t))
  | .dirtyBackgroundRatio, t => .integer (readInt 0 (some t))
  | .queueScheduler _, t => .word (IoStorage.bracketed t)
  | .readLatNsec _, t => .number ((IStream.ofText t).uint64 0).1
  | .writeLatNsec _, t => .number ((IStream.ofText t).uint64 0).1

def Sysfs.value (files : Sysfs) (a : Attr) : Option Reading :=
  (files a).map a.reading

/-- Whether the attribute has the value that an accepted write of `value`
gives it. -/
def Sysfs.Holds (files : Sysfs) (a : Attr) (value : Text) : Prop :=
  files.value a = some (a.reading (a.shown value))

namespace Sysfs

theorem value_congr {files files' : Sysfs} {a : Attr} (h : files' a = files a) :
    files'.value a = files.value a := by
  simp [value, h]

/-! ## The read functions and the value -/

theorem currentGovernor_eq_iff {files : Sysfs} {cpu : Int32} {g : Text}
    (h : (files (.scalingGovernor cpu)).isSome = true) :
    Governor.currentGovernor files cpu = g ↔
      files.value (.scalingGovernor cpu) = some (.word g) := by
  obtain ⟨t, ht⟩ := Option.isSome_iff_exists.mp h
  simp [Governor.currentGovernor, value, ht, Attr.reading]

theorem currentMinFreqKhz_eq_iff {files : Sysfs} {cpu : Int32} {f : UInt64}
    (h : (files (.scalingMinFreq cpu)).isSome = true) :
    Governor.currentMinFreqKhz files cpu = f ↔
      files.value (.scalingMinFreq cpu) = some (.number f) := by
  obtain ⟨t, ht⟩ := Option.isSome_iff_exists.mp h
  simp [Governor.currentMinFreqKhz, value, ht, Attr.reading]

theorem currentMaxFreqKhz_eq_iff {files : Sysfs} {cpu : Int32} {f : UInt64}
    (h : (files (.scalingMaxFreq cpu)).isSome = true) :
    Governor.currentMaxFreqKhz files cpu = f ↔
      files.value (.scalingMaxFreq cpu) = some (.number f) := by
  obtain ⟨t, ht⟩ := Option.isSome_iff_exists.mp h
  simp [Governor.currentMaxFreqKhz, value, ht, Attr.reading]

theorem currentEpp_eq_some_iff {files : Sysfs} {cpu e : Int32} :
    Governor.currentEpp files cpu = some e ↔
      files.value (.energyPerformancePreference cpu) = some (.integer e) := by
  cases ht : files (.energyPerformancePreference cpu) with
  | none => simp [Governor.currentEpp, value, ht]
  | some t =>
      simp only [Governor.currentEpp, value, ht, Option.map_some, Attr.reading]
      cases stoi ((IStream.ofText t).word []).1 <;> simp [Except.toOption]

theorem currentScheduler_eq_iff {files : Sysfs} {device n : Text}
    (h : (files (.queueScheduler device)).isSome = true) :
    IoStorage.currentScheduler files device = n ↔
      files.value (.queueScheduler device) = some (.word n) := by
  obtain ⟨t, ht⟩ := Option.isSome_iff_exists.mp h
  simp [IoStorage.currentScheduler, value, ht, Attr.reading]

/-! ## What is read depends on the value only -/

variable {files files' : Sysfs}

theorem currentGovernor_congr {cpu : Int32}
    (h : files'.value (.scalingGovernor cpu) = files.value (.scalingGovernor cpu)) :
    Governor.currentGovernor files' cpu = Governor.currentGovernor files cpu := by
  unfold value at h
  unfold Governor.currentGovernor
  cases hfile : files (.scalingGovernor cpu) <;> cases hfile' : files' (.scalingGovernor cpu) <;>
    simp_all [Attr.reading]

theorem currentMinFreqKhz_congr {cpu : Int32}
    (h : files'.value (.scalingMinFreq cpu) = files.value (.scalingMinFreq cpu)) :
    Governor.currentMinFreqKhz files' cpu = Governor.currentMinFreqKhz files cpu := by
  unfold value at h
  unfold Governor.currentMinFreqKhz
  cases hfile : files (.scalingMinFreq cpu) <;> cases hfile' : files' (.scalingMinFreq cpu) <;>
    simp_all [Attr.reading]

theorem currentMaxFreqKhz_congr {cpu : Int32}
    (h : files'.value (.scalingMaxFreq cpu) = files.value (.scalingMaxFreq cpu)) :
    Governor.currentMaxFreqKhz files' cpu = Governor.currentMaxFreqKhz files cpu := by
  unfold value at h
  unfold Governor.currentMaxFreqKhz
  cases hfile : files (.scalingMaxFreq cpu) <;> cases hfile' : files' (.scalingMaxFreq cpu) <;>
    simp_all [Attr.reading]

theorem currentEpp_congr {cpu : Int32}
    (h : files'.value (.energyPerformancePreference cpu) =
      files.value (.energyPerformancePreference cpu)) :
    Governor.currentEpp files' cpu = Governor.currentEpp files cpu := by
  apply Option.ext
  intro e
  rw [currentEpp_eq_some_iff, currentEpp_eq_some_iff, h]

theorem currentScheduler_congr {device : Text}
    (h : files'.value (.queueScheduler device) = files.value (.queueScheduler device)) :
    IoStorage.currentScheduler files' device = IoStorage.currentScheduler files device := by
  unfold value at h
  unfold IoStorage.currentScheduler
  cases hfile : files (.queueScheduler device) <;>
    cases hfile' : files' (.queueScheduler device) <;> simp_all [Attr.reading]

theorem readInt_congr {a : Attr} (default : Int32)
    (hreading : ∀ t, a.reading t = .integer (readInt default (some t)))
    (h : files'.value a = files.value a) :
    readInt default (files' a) = readInt default (files a) := by
  unfold value at h
  cases hfile : files a <;> cases hfile' : files' a <;> simp_all

end Sysfs

/-! ## The value behind an accepted write -/

namespace Attr

theorem reading_shown_governor {cpu : Int32} {g : Text} (hg : IsWord g) :
    (scalingGovernor cpu).reading ((scalingGovernor cpu).shown g) = .word g := by
  simp [reading, shown, IStream.word_line hg]

theorem reading_shown_minFreq (cpu : Int32) (f : UInt64) :
    (scalingMinFreq cpu).reading ((scalingMinFreq cpu).shown (decimal f.toNat)) = .number f := by
  simp [reading, shown, IStream.uint64_line]

theorem reading_shown_maxFreq (cpu : Int32) (f : UInt64) :
    (scalingMaxFreq cpu).reading ((scalingMaxFreq cpu).shown (decimal f.toNat)) = .number f := by
  simp [reading, shown, IStream.uint64_line]

theorem reading_shown_epp (cpu e : Int32) :
    (energyPerformancePreference cpu).reading
      ((energyPerformancePreference cpu).shown (decimalInt e.toInt)) = .integer e := by
  simp [reading, shown, IStream.stoi_word_line]

theorem reading_shown_scheduler {device n : Text} (hn : Spaceless n) :
    (queueScheduler device).reading ((queueScheduler device).shown n) = .word n := by
  simp [reading, IoStorage.bracketed_shown hn]

end Attr

/-! ## What was read holds -/

theorem holds_governor {files : Sysfs} {cpuId : Int32}
    (hpresent : (files (.scalingGovernor cpuId)).isSome = true)
    (hgovernor : Governor.currentGovernor files cpuId ≠ []) :
    files.Holds (.scalingGovernor cpuId) (Governor.currentGovernor files cpuId) := by
  have hword := (Governor.spaceless_currentGovernor files cpuId).isWord hgovernor
  rw [Sysfs.Holds, Attr.reading_shown_governor hword]
  exact (Sysfs.currentGovernor_eq_iff hpresent).mp rfl

theorem holds_scheduler {files : Sysfs} {device : Text}
    (hpresent : (files (.queueScheduler device)).isSome = true) :
    files.Holds (.queueScheduler device) (IoStorage.currentScheduler files device) := by
  rw [Sysfs.Holds,
    Attr.reading_shown_scheduler (IoStorage.spaceless_currentScheduler files device)]
  exact (Sysfs.currentScheduler_eq_iff hpresent).mp rfl

theorem holds_minFreq {files : Sysfs} {cpuId : Int32}
    (hpresent : (files (.scalingMinFreq cpuId)).isSome = true) :
    files.Holds (.scalingMinFreq cpuId)
      (decimal (Governor.currentMinFreqKhz files cpuId).toNat) := by
  rw [Sysfs.Holds, Attr.reading_shown_minFreq]
  exact (Sysfs.currentMinFreqKhz_eq_iff hpresent).mp rfl

theorem holds_maxFreq {files : Sysfs} {cpuId : Int32}
    (hpresent : (files (.scalingMaxFreq cpuId)).isSome = true) :
    files.Holds (.scalingMaxFreq cpuId)
      (decimal (Governor.currentMaxFreqKhz files cpuId).toNat) := by
  rw [Sysfs.Holds, Attr.reading_shown_maxFreq]
  exact (Sysfs.currentMaxFreqKhz_eq_iff hpresent).mp rfl

theorem holds_epp_iff {files : Sysfs} {cpuId epp : Int32} :
    files.Holds (.energyPerformancePreference cpuId) (decimalInt epp.toInt) ↔
      Governor.currentEpp files cpuId = some epp := by
  rw [Sysfs.Holds, Attr.reading_shown_epp, Sysfs.currentEpp_eq_some_iff]

theorem holds_readInt {files : Sysfs} {a : Attr} (default : Int32)
    (hreading : ∀ t, a.reading t = .integer (readInt default (some t)))
    (hshown : ∀ value, a.shown value = value ++ ['\n'])
    (hpresent : (files a).isSome = true) :
    files.Holds a (decimalInt (readInt default (files a)).toInt) := by
  obtain ⟨t, ht⟩ := Option.isSome_iff_exists.mp hpresent
  have hread (z : Int32) : readInt default (some (decimalInt z.toInt ++ ['\n'])) = z :=
    IStream.int32_line _ _
  simp only [Sysfs.Holds, Sysfs.value, ht, Option.map_some, hreading, hshown, hread]

/-! ## Writes and values -/

namespace World

theorem value_writeValue_of_ne (k : Kernel) {a b : Attr} (value : Text) (w : World)
    (h : b ≠ a) : (w.writeValue k a value).2.files.value b = w.files.value b :=
  Sysfs.value_congr (writeValue_files_of_ne k value w h)

theorem writeValue_files_of_false {k : Kernel} {a : Attr} {value : Text} {w : World}
    (h : (w.writeValue k a value).1 = false) : (w.writeValue k a value).2.files = w.files := by
  have hrefused : w.answer k a value = .refusedAtOpen := by simpa [writeValue] using h
  exact flush_files_of_not_accepted (by simp [hrefused])

/-- A write that returned true leaves the attribute with its value unless the
kernel refused it at close, and then the attribute is as before. -/
theorem holds_writeValue_iff {k : Kernel} {a : Attr} {value : Text} {w : World}
    (hvalue : value ≠ []) (hok : (w.writeValue k a value).1 = true) :
    (w.writeValue k a value).2.files.Holds a value ↔
      (w.answer k a value = .refusedAtClose → w.files.Holds a value) := by
  cases hanswer : w.answer k a value with
  | refusedAtOpen => simp [writeValue, hanswer] at hok
  | refusedAtClose =>
      have hfiles : (w.writeValue k a value).2.files = w.files :=
        flush_files_of_not_accepted (by simp [hanswer])
      simp [hfiles]
  | accepted =>
      have hfiles : (w.writeValue k a value).2.files a = some (a.shown value) := by
        simp only [writeValue, hanswer]
        exact flush_files_self hvalue
      simp [Sysfs.Holds, Sysfs.value, hfiles]

end World
end BetterCpu
