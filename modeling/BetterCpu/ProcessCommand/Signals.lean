import BetterCpu.ProcessCommand.KillCommand
import BetterCpu.ProcessCommand.Options
import BetterCpu.ProcessManager.KernelProcesses

/-!
# From the files of the processes to the signals

The listing gives every process that the two passes have counted a place, and
the ids of this place reach the process alone, or all of its name.  No id
reaches anything else.
-/

namespace BetterCpu.ProcessCommand

open Text ProcessManager

variable {s : Sampling} {programs : List ProgramGroup}

variable {kill : Int32 → Bool}

/-- Whatever an id denotes is among the processes of the programs. -/
theorem Denotes.subset {idToken : Text} {pids : List Int32} (h : Denotes programs idToken pids)
    {pid : Int32} (hpid : pid ∈ pids) :
    ∃ program ∈ programs, pid ∈ program.processes.map ProcessSample.pid := by
  cases h with
  | process _ hprogram hprocess =>
      obtain rfl := List.mem_singleton.mp hpid
      exact ⟨_, List.mem_of_getElem? hprogram, List.mem_map_of_mem (List.mem_of_getElem? hprocess)⟩
  | program _ hprogram => exact ⟨_, List.mem_of_getElem? hprogram, hpid⟩

end BetterCpu.ProcessCommand
