import BetterCpu.Library.FloatStream
import BetterCpu.Library.Search
import BetterCpu.Sensors

/-!
# The load and the temperatures

`read_load_average` extracts three numbers, and `read_thermal_zones` one from
each zone.  What they return for the files of the kernel is what these show, to
the last digit and whatever the memory held before.
-/

namespace BetterCpu

open Text

/-- `loadavg` is the content of `/proc/loadavg`, `none` when it cannot be opened. -/
def readLoadAverage (round : Rounding) (loadavg : Option Text) : LoadAverage :=
  match loadavg with
  | none => ⟨0, 0, 0⟩
  | some t =>
      let (avg1, s) := (IStream.ofText t).float round 0
      let (avg5, s) := s.float round 0
      let (avg15, _) := s.float round 0
      ⟨avg1, avg5, avg15⟩

/-! ## The files of the kernel -/

/-- The load in hundredths, with what stands behind it. -/
structure KernelLoad where
  avg1 : ℕ
  avg5 : ℕ
  avg15 : ℕ
  processes : Text

def KernelLoad.text (load : KernelLoad) : Text :=
  hundredths load.avg1 ++ ' ' :: (hundredths load.avg5 ++ ' ' ::
    (hundredths load.avg15 ++ ' ' :: load.processes))

def KernelLoad.average (load : KernelLoad) : LoadAverage :=
  ⟨load.avg1 / 100, load.avg5 / 100, load.avg15 / 100⟩

theorem readLoadAverage_text (load : KernelLoad) :
    readLoadAverage .exact (some load.text) = load.average := by
  have hblank (t : Text) : Delimited (' ' :: t) := (delimited_cons ' ' t).mpr isSpace_blank
  have hfirst := IStream.float_of_hundredths [] 0 load.avg1 (by simp)
    (hblank (hundredths load.avg5 ++ ' ' :: (hundredths load.avg15 ++ ' ' :: load.processes)))
  have hsecond := IStream.float_of_hundredths [' '] 0 load.avg5 (by simp [isSpace_blank])
    (hblank (hundredths load.avg15 ++ ' ' :: load.processes))
  have hthird := IStream.float_of_hundredths [' '] 0 load.avg15 (by simp [isSpace_blank])
    (hblank load.processes)
  simp only [List.nil_append, List.singleton_append] at hfirst hsecond hthird
  simp only [readLoadAverage, KernelLoad.text, IStream.ofText, hfirst, hsecond, hthird]
  rfl

/-- A thermal zone with its temperature in thousandths of a degree. -/
structure KernelZone where
  zonePath : Text
  type : Text
  temp : Int64
  type_line : '\n' ∉ type

def KernelZone.files (zone : KernelZone) : ZoneFiles where
  zonePath := zone.zonePath
  temp := some (decimalInt zone.temp.toInt ++ ['\n'])
  type := some (zone.type ++ ['\n'])

def KernelZone.reading (zone : KernelZone) : ThermalZoneReading :=
  ⟨zone.zonePath, zone.type, zone.temp⟩

theorem readThermalZones_files (leftover : Text → Int64) (zones : List KernelZone) :
    readThermalZones leftover (zones.map KernelZone.files) = zones.map KernelZone.reading := by
  have hzone (zone : KernelZone) :
      zone.files.reading (leftover zone.files.zonePath) = some zone.reading := by
    have htemp := IStream.int64_of_decimalInt [] (leftover zone.zonePath) zone.temp (by simp)
      ((delimited_cons '\n' []).mpr isSpace_newline)
    have htype : (zone.type ++ ['\n']).takeWhile (· ≠ '\n') = zone.type :=
      takeWhile_ne_append_cons zone.type_line
    simp only [List.nil_append] at htemp
    simp only [ZoneFiles.reading, KernelZone.files, IStream.ofText, htemp, htype]
    rfl
  rw [readThermalZones, List.filterMap_map, ← List.filterMap_eq_map]
  exact List.filterMap_congr fun zone _ ↦ hzone zone

end BetterCpu
