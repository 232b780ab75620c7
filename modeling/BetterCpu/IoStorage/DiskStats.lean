import BetterCpu.IoStorage
import BetterCpu.Library.Lines
import BetterCpu.Library.Search

/-!
# Reading the disk statistics

`read_diskstats` on the content of `/proc/diskstats`.  A row has the numbers of
the device, its name and its counters; the counters are extracted from the
first row with the name that is looked for, by their positions.
-/

namespace BetterCpu.IoStorage

open Text

/-- The counters that are extracted.  They are not initialized, so that a row
with too few of them leaves some as they happen to be. -/
structure DiskCounters where
  readsCompleted : UInt64
  readsMerged : UInt64
  readSectors : UInt64
  readTimeMs : UInt64
  writesCompleted : UInt64
  writesMerged : UInt64
  writeSectors : UInt64
  writeTimeMs : UInt64
  ioInProgress : UInt64
  ioTimeMs : UInt64

def readCounters (leftover : DiskCounters) (s : IStream) : DiskCounters :=
  let (readsCompleted, s) := s.uint64 leftover.readsCompleted
  let (readsMerged, s) := s.uint64 leftover.readsMerged
  let (readSectors, s) := s.uint64 leftover.readSectors
  let (readTimeMs, s) := s.uint64 leftover.readTimeMs
  let (writesCompleted, s) := s.uint64 leftover.writesCompleted
  let (writesMerged, s) := s.uint64 leftover.writesMerged
  let (writeSectors, s) := s.uint64 leftover.writeSectors
  let (writeTimeMs, s) := s.uint64 leftover.writeTimeMs
  let (ioInProgress, s) := s.uint64 leftover.ioInProgress
  let (ioTimeMs, _) := s.uint64 leftover.ioTimeMs
  ⟨readsCompleted, readsMerged, readSectors, readTimeMs, writesCompleted, writesMerged,
    writeSectors, writeTimeMs, ioInProgress, ioTimeMs⟩

/-- One turn of the loop over the lines; `none` where it continues.  Nothing
looks at the two numbers in front of the name. -/
def readRow (leftover : DiskCounters) (deviceName line : Text) : Option DiskCounters :=
  let (_, s) := (IStream.ofText line).int32 0
  let (_, s) := s.int32 0
  let (name, s) := s.word []
  if name ≠ deviceName then none else some (readCounters leftover s)

def DiskCounters.sample (deviceName : Text) (counters : DiskCounters) : DiskStatsSample where
  deviceName := deviceName
  readSectors := counters.readSectors
  writeSectors := counters.writeSectors
  readsCompleted := counters.readsCompleted
  writesCompleted := counters.writesCompleted
  ioInProgress := counters.ioInProgress
  ioTimeMs := counters.ioTimeMs

def zeroSample (deviceName : Text) : DiskStatsSample := ⟨deviceName, 0, 0, 0, 0, 0, 0⟩

/-- `content` is that of `/proc/diskstats`, `none` when it cannot be opened. -/
def readDiskstats (leftover : DiskCounters) (deviceName : Text) (content : Option Text) :
    DiskStatsSample :=
  match content.bind fun text ↦ (getlines '\n' text).findSome? (readRow leftover deviceName) with
  | none => zeroSample deviceName
  | some counters => counters.sample deviceName

/-! ## The table of the kernel -/

/-- The numbers are padded with blanks, and newer kernels have more counters
than the ten that are extracted. -/
structure DiskRow where
  margin : ℕ
  major : Int32
  gap : ℕ
  minor : Int32
  name : Text
  counters : List UInt64
  name_isWord : IsWord name
  enough : 10 ≤ counters.length

def counterFields (counters : List UInt64) : Text :=
  (counters.map fun counter ↦ decimal counter.toNat).flatMap fun field ↦ ' ' :: field

def DiskRow.text (row : DiskRow) : Text :=
  List.replicate row.margin ' ' ++ (decimalInt row.major.toInt ++
    (List.replicate (row.gap + 1) ' ' ++ (decimalInt row.minor.toInt ++
      (' ' :: (row.name ++ counterFields row.counters)))))

structure DiskTable where
  rows : List DiskRow
  nodup : (rows.map DiskRow.name).Nodup

def DiskTable.text (table : DiskTable) : Text :=
  (table.rows.map DiskRow.text).flatMap fun line ↦ line ++ ['\n']

/-- What belongs to a row: its counters at the positions 1, 3, 5, 7, 9 and 10. -/
structure DiskRow.Sampled (row : DiskRow) (sample : DiskStatsSample) : Prop where
  deviceName : sample.deviceName = row.name
  readsCompleted : row.counters[0]? = some sample.readsCompleted
  readSectors : row.counters[2]? = some sample.readSectors
  writesCompleted : row.counters[4]? = some sample.writesCompleted
  writeSectors : row.counters[6]? = some sample.writeSectors
  ioInProgress : row.counters[8]? = some sample.ioInProgress
  ioTimeMs : row.counters[9]? = some sample.ioTimeMs

theorem delimited_counterFields (counters : List UInt64) : Delimited (counterFields counters) :=
  delimited_flatMap_blank _

theorem uint64_counterFields (old counter : UInt64) (counters : List UInt64) :
    IStream.uint64 old ⟨counterFields (counter :: counters), false⟩ =
      (counter, ⟨counterFields counters, false⟩) := by
  have hread := IStream.uint64_of_decimal [' '] old counter (by simp [isSpace_blank])
    (delimited_counterFields counters)
  simpa [counterFields] using hread

theorem isSpace_of_mem_replicate {n : ℕ} : ∀ c ∈ List.replicate n ' ', isSpace c = true := by
  intro c hc
  rw [List.eq_of_mem_replicate hc]
  exact isSpace_blank

/-- A row is skipped exactly if it has another name. -/
theorem readRow_text (leftover : DiskCounters) (deviceName : Text) (row : DiskRow) :
    readRow leftover deviceName row.text =
      if row.name ≠ deviceName then none
      else some (readCounters leftover ⟨counterFields row.counters, false⟩) := by
  have hblanks (n : ℕ) (t : Text) : Delimited (List.replicate (n + 1) ' ' ++ t) := by
    simp [List.replicate_succ, isSpace_blank]
  have hmajor := IStream.int32_of_decimalInt (List.replicate row.margin ' ')
    (r := List.replicate (row.gap + 1) ' ' ++ (decimalInt row.minor.toInt ++
      (' ' :: (row.name ++ counterFields row.counters)))) 0 row.major
    isSpace_of_mem_replicate (hblanks _ _)
  have hminor := IStream.int32_of_decimalInt (List.replicate (row.gap + 1) ' ')
    (r := ' ' :: (row.name ++ counterFields row.counters)) 0 row.minor
    isSpace_of_mem_replicate (by simp [isSpace_blank])
  have hname : IStream.word [] ⟨' ' :: (row.name ++ counterFields row.counters), false⟩ =
      (row.name, ⟨counterFields row.counters, false⟩) :=
    IStream.word_of_word [' '] [] (by simp [isSpace_blank]) row.name_isWord
      (delimited_counterFields _)
  simp only [readRow, IStream.ofText, DiskRow.text, hmajor, hminor, hname]

theorem DiskRow.sampled (row : DiskRow) (leftover : DiskCounters) :
    row.Sampled
      ((readCounters leftover ⟨counterFields row.counters, false⟩).sample row.name) := by
  obtain ⟨margin, major, gap, minor, name, counters, hname, henough⟩ := row
  match counters, henough with
  | c₁ :: c₂ :: c₃ :: c₄ :: c₅ :: c₆ :: c₇ :: c₈ :: c₉ :: c₁₀ :: counters, _ =>
      simp only [readCounters, uint64_counterFields]
      constructor <;> rfl

theorem DiskRow.newline_notMem_text (row : DiskRow) : '\n' ∉ row.text := by
  have hnumber (z : ℤ) : '\n' ∉ decimalInt z := notMem_decimalInt (by decide) (by decide) z
  have hfields : '\n' ∉ counterFields row.counters := by
    intro hmem
    obtain ⟨field, hfield, hchar⟩ := List.mem_flatMap.mp hmem
    obtain ⟨counter, -, rfl⟩ := List.mem_map.mp hfield
    rcases List.mem_cons.mp hchar with hblank | hchar
    · cases hblank
    · exact notMem_decimal (by decide) _ hchar
  have hname : '\n' ∉ row.name := row.name_isWord.2.notMem isSpace_newline
  simp [DiskRow.text, hnumber, hfields, hname]

/-- The sample of a device is that of its row, wherever it stands and whatever
the other rows are. -/
theorem diskstats_of_device (table : DiskTable) (leftover : DiskCounters) (deviceName : Text) :
    (∀ row ∈ table.rows, row.name = deviceName →
        row.Sampled (readDiskstats leftover deviceName (some table.text))) ∧
      ((∀ row ∈ table.rows, row.name ≠ deviceName) →
        readDiskstats leftover deviceName (some table.text) = zeroSample deviceName) := by
  have hlines : getlines '\n' table.text = table.rows.map DiskRow.text := by
    refine getlines_flatMap fun line hline ↦ ?_
    obtain ⟨row, -, rfl⟩ := List.mem_map.mp hline
    exact row.newline_notMem_text
  constructor
  · rintro row hrow rfl
    have hfind : (table.rows.map DiskRow.text).findSome? (readRow leftover row.name) =
        some (readCounters leftover ⟨counterFields row.counters, false⟩) := by
      rw [List.findSome?_map]
      refine findSome?_eq_some_of_unique hrow (by simp [readRow_text]) fun other hother hread ↦ ?_
      refine List.inj_on_of_nodup_map table.nodup hother hrow ?_
      by_contra hne
      exact hread (by simp [readRow_text, hne])
    simp only [readDiskstats, Option.bind_some, hlines, hfind]
    exact row.sampled leftover
  · intro hnone
    have hfind : (table.rows.map DiskRow.text).findSome? (readRow leftover deviceName) = none := by
      simp only [List.findSome?_map, List.findSome?_eq_none_iff, Function.comp, readRow_text]
      exact fun row hrow ↦ if_pos (hnone row hrow)
    simp only [readDiskstats, Option.bind_some, hlines, hfind]

end BetterCpu.IoStorage
