import BetterCpu.PolicyEngine.Openings
import BetterCpu.StartCommand.Restoration

/-!
# What is tuned and what is backed up

The capture fixes its cores and devices once; the engine discovers its own and
lists the devices again at every tick.  A run is covered when everything that
its events reach was there at the capture and was captured.
-/

namespace BetterCpu

open Text

/-! ## Runs with cores and devices that come and go -/

inductive RunEvent where
  | appear (added : Sysfs)
  | disappear (gone : Attr → Bool)
  | applyInitialState (blocks : BlockLayer)
  | tick (input : TickInput)

namespace RunEvent

/-- An attribute that appears was not there before; one that disappears can no
longer be opened. -/
def run (k : Kernel) : RunEvent → Session → Session
  | appear added, s =>
      { s with world := { s.world with files := fun a ↦ (s.world.files a).or (added a) } }
  | disappear gone, s =>
      { s with world := { s.world with
          files := fun a ↦ if gone a then none else s.world.files a } }
  | applyInitialState blocks, s => s.applyInitialState k blocks
  | tick input, s => s.tick k input

def actions : RunEvent → Session → List Action
  | applyInitialState blocks, s => initialActions s.engine.cores blocks
  | tick input, s => tickActions s.engine.cores input
  | _, _ => []

end RunEvent

/-! ## Backed up attributes -/

variable {B : Attr → Prop} {k : Kernel} {s : Session}

section Backs

variable {m : Machine} {orig : Sysfs} {cpuId : Int32} {deviceName : Text}

end Backs

/-! ## Runs -/

end BetterCpu
