import BetterCpu.Governor

/-!
# The backup file

`StateBackup::save` writes a state as lines of words; `StateBackup::load`
reads them back with formatted extraction, and fails through the exceptions of
`std::stoi`.
-/

namespace BetterCpu

open Text

structure SystemStateBackup where
  cpuFreqStates : List CpuFreqState
  swappiness : Int32
  vfsCachePressure : Int32
  dirtyRatio : Int32
  dirtyBackgroundRatio : Int32
  ioSchedulers : List (Text × Text)
  deriving DecidableEq

namespace StateBackup

def noneToken : Text := ['n', 'o', 'n', 'e']

/-! ## Saving -/

def eppToken : Option Int32 → Text
  | none => noneToken
  | some epp => decimalInt epp.toInt

def saveInt (value : Int32) : Text :=
  decimalInt value.toInt ++ ['\n']

def saveCpu (state : CpuFreqState) : Text :=
  decimalInt state.cpuId.toInt ++ ' ' :: (state.governor ++
    ' ' :: (decimal state.minFreqKhz.toNat ++
      ' ' :: (decimal state.maxFreqKhz.toNat ++
        ' ' :: (eppToken state.eppValue ++ ['\n']))))

def saveScheduler (entry : Text × Text) : Text :=
  entry.1 ++ ' ' :: (entry.2 ++ ['\n'])

def save (state : SystemStateBackup) : Text :=
  saveInt state.swappiness ++ (saveInt state.vfsCachePressure ++
    (saveInt state.dirtyRatio ++ (saveInt state.dirtyBackgroundRatio ++
      (decimal state.cpuFreqStates.length ++ '\n' ::
        (state.cpuFreqStates.flatMap saveCpu ++
          (decimal state.ioSchedulers.length ++ '\n' ::
            state.ioSchedulers.flatMap saveScheduler))))))

/-! ## Loading -/

/-- The preference is left empty for the token `none`. -/
def loadEpp (epp : Text) : Except StdException (Option Int32) :=
  if epp ≠ noneToken then (stoi epp).map some else .ok none

/-- One turn of the first loop of `StateBackup::load`. -/
def loadCpu (s : IStream) : Except StdException (CpuFreqState × IStream) := do
  let (cpuId, s) := s.int32 0
  let (governor, s) := s.word []
  let (minFreqKhz, s) := s.uint64 0
  let (maxFreqKhz, s) := s.uint64 0
  let (epp, s) := s.word []
  let eppValue ← loadEpp epp
  return (⟨cpuId, governor, minFreqKhz, maxFreqKhz, eppValue⟩, s)

def loadCpus : ℕ → IStream → Except StdException (List CpuFreqState × IStream)
  | 0, s => .ok ([], s)
  | count + 1, s => do
      let (state, s) ← loadCpu s
      let (states, s) ← loadCpus count s
      return (state :: states, s)

def loadScheduler (s : IStream) : (Text × Text) × IStream :=
  let (deviceName, s) := s.word []
  let (schedulerName, s) := s.word []
  ((deviceName, schedulerName), s)

def loadSchedulers : ℕ → IStream → List (Text × Text)
  | 0, _ => []
  | count + 1, s =>
      let (entry, s) := loadScheduler s
      entry :: loadSchedulers count s

/-- `StateBackup::load` on a file that shows the text, `none` when the file
cannot be opened. -/
def load : Option Text → Except StdException (Option SystemStateBackup)
  | none => .ok none
  | some t => do
      let s := IStream.ofText t
      let (swappiness, s) := s.int32 0
      let (vfsCachePressure, s) := s.int32 0
      let (dirtyRatio, s) := s.int32 0
      let (dirtyBackgroundRatio, s) := s.int32 0
      let (cpuStateCount, s) := s.uint64 0
      let (cpuFreqStates, s) ← loadCpus cpuStateCount.toNat s
      let (ioSchedulerCount, s) := s.uint64 0
      let s := s.ignore
      let ioSchedulers := loadSchedulers ioSchedulerCount.toNat s
      return some ⟨cpuFreqStates, swappiness, vfsCachePressure, dirtyRatio,
        dirtyBackgroundRatio, ioSchedulers⟩

end StateBackup
end BetterCpu
