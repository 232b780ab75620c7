import BetterCpu.Sysfs
import Mathlib.Data.Rat.Defs

/-!
# Memory pressure and the virtual memory attributes

The averages of `/proc/pressure/memory` are rationals here.
-/

namespace BetterCpu

open Text

structure MemoryPressure where
  avg10 : ℚ
  avg60 : ℚ
  avg300 : ℚ

structure ProcessMemoryUsage where
  pid : Int32
  comm : Text
  rssKb : UInt64

inductive MemoryPressureLevel where
  | healthy
  | rising
  | critical
  deriving DecidableEq, Repr

/-- `file >> value` on an `int` that holds a default when the file is missing. -/
def readInt (default : Int32) : Option Text → Int32
  | none => default
  | some t => ((IStream.ofText t).int32 default).1

/-- What is read after a number has been written to a file of the kind that
shows what was written. -/
theorem readInt_writeValue (k : Kernel) {a : Attr}
    (hshown : ∀ value, a.shown value = value ++ ['\n']) (default z : Int32) (w : World) :
    readInt default ((w.writeValue k a (decimalInt z.toInt)).2.files a) =
      if w.answer k a (decimalInt z.toInt) = .accepted then z else readInt default (w.files a) := by
  simp only [World.writeValue]
  split
  · next haccepted =>
      rw [haccepted, World.flush_files_self (isWord_decimalInt _).1, hshown]
      exact IStream.int32_line _ _
  · next hrefused => rw [World.flush_files_of_not_accepted hrefused]

namespace MemGuard

def classify (pressure : MemoryPressure) : MemoryPressureLevel :=
  if 20 < pressure.avg10 then .critical
  else if 5 ≤ pressure.avg10 then .rising
  else .healthy

def readSwappiness (files : Sysfs) : Int32 :=
  readInt 60 (files .swappiness)

def readVfsCachePressure (files : Sysfs) : Int32 :=
  readInt 100 (files .vfsCachePressure)

def setSwappiness (k : Kernel) (value : Int32) (w : World) : Bool × World :=
  w.writeValue k .swappiness (decimalInt value.toInt)

def setVfsCachePressure (k : Kernel) (value : Int32) (w : World) : Bool × World :=
  w.writeValue k .vfsCachePressure (decimalInt value.toInt)

def requestGracefulTermination (pid : Int32) (w : World) : World :=
  w.kill pid

end MemGuard
end BetterCpu
