import BetterCpu.IoStorage

/-!
# What the daemon samples

The readings of the thermal zones and of the load, the cores that
`Topology::discover_cores` lists, and everything that one tick reads apart from
the attributes it tunes.  A tick samples some sensors twice, so the two values
are two fields.
-/

namespace BetterCpu

structure ThermalZoneReading where
  zonePath : Text
  type : Text
  tempMillidegrees : Int64

/-- The files of a thermal zone, `none` for one that cannot be opened.  A file
that is opened but cannot be read is one without content. -/
structure ZoneFiles where
  zonePath : Text
  temp : Option Text
  type : Option Text

/-- One turn of the loop of `read_thermal_zones`, unless it continues.  The
reading is not initialized: `leftover` is what its temperature happens to hold
before the extraction. -/
def ZoneFiles.reading (leftover : Int64) (zone : ZoneFiles) : Option ThermalZoneReading :=
  match zone.temp, zone.type with
  | some temp, some type =>
      some ⟨zone.zonePath, type.takeWhile (· ≠ '\n'), ((IStream.ofText temp).int64 leftover).1⟩
  | _, _ => none

def readThermalZones (leftover : Text → Int64) (zones : List ZoneFiles) :
    List ThermalZoneReading :=
  zones.filterMap fun zone ↦ zone.reading (leftover zone.zonePath)

structure LoadAverage where
  avg1 : ℚ
  avg5 : ℚ
  avg15 : ℚ

structure CpuCoreInfo where
  cpuId : Int32
  coreId : Int32
  packageId : Int32
  capacity : UInt32
  isOnline : Bool
  isSmtSibling : Bool

def onlineIds (cores : List CpuCoreInfo) : List Int32 :=
  (cores.filter CpuCoreInfo.isOnline).map CpuCoreInfo.cpuId

structure BlockLayer where
  sysBlock : List Text
  rotational : Text → Option Text
  diskStats : Text → DiskStatsSample

/-- The readings of one tick.  `pressure`, `zones`, `load` and `onlineCores`
are the ones `PolicyEngine::tick` classifies; the policies read their own. -/
structure TickInput where
  pressure : MemoryPressure
  zones : List ThermalZoneReading
  load : LoadAverage
  onlineCores : ℕ
  thermalZones : List ThermalZoneReading
  policyLoad : LoadAverage
  policyOnlineCores : ℕ
  policyPressure : MemoryPressure
  topConsumers : List ProcessMemoryUsage
  blocks : BlockLayer

end BetterCpu
