import BetterCpu.MemGuard

/-!
# Block devices, their schedulers and the dirty page ratios
-/

namespace BetterCpu

open Text

inductive DiskKind where
  | nvme
  | ssdSata
  | hdd
  | unknown
  deriving DecidableEq, Repr

structure DiskStatsSample where
  deviceName : Text
  readSectors : UInt64
  writeSectors : UInt64
  readsCompleted : UInt64
  writesCompleted : UInt64
  ioInProgress : UInt64
  ioTimeMs : UInt64

namespace IoStorage

def listBlockDevices (entries : List Text) : List Text :=
  entries.filter fun name ↦
    name ≠ ['.'] && name ≠ ['.', '.'] &&
      !(['l', 'o', 'o', 'p'].isPrefixOf name) && !(['r', 'a', 'm'].isPrefixOf name)

/-- The text is that of `queue/rotational`, `none` when it cannot be opened. -/
def detectKind (deviceName : Text) (rotational : Option Text) : DiskKind :=
  if ['n', 'v', 'm', 'e'].isPrefixOf deviceName then .nvme
  else
    match rotational with
    | none => .unknown
    | some t => if ((IStream.ofText t).int32 0).1 = 1 then .hdd else .ssdSata

def bracketed (t : Text) : Text :=
  match (words t).find? fun token ↦ token.head? = some '[' with
  | none => []
  | some token => (token.drop 1).take (token.length - 2)

def currentScheduler (files : Sysfs) (deviceName : Text) : Text :=
  match files (.queueScheduler deviceName) with
  | none => []
  | some t => bracketed t

def setScheduler (k : Kernel) (deviceName scheduler : Text) (w : World) : Bool × World :=
  w.writeValue k (.queueScheduler deviceName) scheduler

/-- Both files are opened before anything is inserted, and they are closed in
the reverse order. -/
def setNvmeLatencyTarget (k : Kernel) (deviceName : Text) (readLatNs writeLatNs : UInt64)
    (w : World) : Bool × World :=
  let readAnswer := w.answer k (.readLatNsec deviceName) (decimal readLatNs.toNat)
  let writeAnswer := w.answer k (.writeLatNsec deviceName) (decimal writeLatNs.toNat)
  if readAnswer = .refusedAtOpen ∨ writeAnswer = .refusedAtOpen then (false, w)
  else
    let w := w.flush (.writeLatNsec deviceName) (decimal writeLatNs.toNat) writeAnswer
    (true, w.flush (.readLatNsec deviceName) (decimal readLatNs.toNat) readAnswer)

def readDirtyRatio (files : Sysfs) : Int32 :=
  readInt 0 (files .dirtyRatio)

def readDirtyBackgroundRatio (files : Sysfs) : Int32 :=
  readInt 0 (files .dirtyBackgroundRatio)

def setDirtyRatio (k : Kernel) (ratio : Int32) (w : World) : Bool × World :=
  w.writeValue k .dirtyRatio (decimalInt ratio.toInt)

def setDirtyBackgroundRatio (k : Kernel) (ratio : Int32) (w : World) : Bool × World :=
  w.writeValue k .dirtyBackgroundRatio (decimalInt ratio.toInt)

theorem bracketed_shown {device scheduler : Text} (h : Spaceless scheduler) :
    bracketed (Attr.shown (.queueScheduler device) scheduler) = scheduler := by
  have htoken : IsWord ('[' :: (scheduler ++ [']'])) := by
    refine ⟨by simp, ?_⟩
    intro c hc
    simp only [List.mem_cons, List.mem_append, List.not_mem_nil, or_false] at hc
    rcases hc with rfl | hc | rfl
    · decide
    · exact h c hc
    · decide
  have hwords := words_append (r := ['\n']) htoken (by simp [isSpace])
  have hshown : Attr.shown (.queueScheduler device) scheduler =
      '[' :: (scheduler ++ [']']) ++ ['\n'] := by simp [Attr.shown]
  rw [bracketed, hshown, hwords]
  simp

theorem spaceless_bracketed (t : Text) : Spaceless (bracketed t) := by
  unfold bracketed
  split
  · simp
  · next token htoken =>
      have hword : IsWord token := isWord_of_mem_words (List.mem_of_find?_eq_some htoken)
      intro c hc
      exact hword.2 c (List.mem_of_mem_drop (List.mem_of_mem_take hc))

theorem spaceless_currentScheduler (files : Sysfs) (deviceName : Text) :
    Spaceless (currentScheduler files deviceName) := by
  unfold currentScheduler
  split
  · simp
  · exact spaceless_bracketed _

end IoStorage
end BetterCpu
