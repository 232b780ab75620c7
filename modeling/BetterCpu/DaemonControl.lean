import BetterCpu.MemGuard

/-!
# The pid file

`DaemonControl` reads and writes the pid file as text.  Which processes are
alive is a predicate on pids; the signal 0 succeeds for any process that is
alive, since the commands run as root.
-/

namespace BetterCpu.DaemonControl

open Text

/-- The pid stays -1 when the file cannot be opened, and is zero when it does
not begin with a number. -/
def readPid (pidFile : Option Text) : Int32 :=
  readInt (-1) pidFile

def isRunning (alive : Int32 → Bool) (pidFile : Option Text) : Bool :=
  let pid := readPid pidFile
  if pid ≤ 0 then false else alive pid

def pidText (pid : Int32) : Text :=
  decimalInt pid.toInt

/-- The process that `send_stop_signal` signals, if it signals any. -/
def stopTarget (alive : Int32 → Bool) (pidFile : Option Text) : Option Int32 :=
  let pid := readPid pidFile
  if pid ≤ 0 then none else if alive pid then some pid else none

@[simp] theorem readPid_pidText (pid : Int32) : readPid (some (pidText pid)) = pid := by
  have h := IStream.int32_of_decimalInt [] (-1) pid (r := []) (by simp) (by simp)
  simpa [readPid, readInt, pidText, IStream.ofText] using congrArg Prod.fst h

theorem isRunning_of_alive {alive : Int32 → Bool} {pidFile : Option Text}
    (hpos : 0 < readPid pidFile) (halive : alive (readPid pidFile) = true) :
    isRunning alive pidFile = true := by
  simp [isRunning, Int32.not_le.mpr hpos, halive]

@[simp] theorem isRunning_none (alive : Int32 → Bool) : isRunning alive none = false := by
  simp [isRunning, readPid, readInt]

theorem isRunning_pidText {alive : Int32 → Bool} {pid : Int32} (hpos : 0 < pid) :
    isRunning alive (some (pidText pid)) = alive pid := by
  simp [isRunning, Int32.not_le.mpr hpos]

end BetterCpu.DaemonControl
