import BetterCpu.Library.Arithmetic
import BetterCpu.Library.Ranking
import BetterCpu.Library.Text
import Mathlib.Algebra.BigOperators.Group.List.Basic
import Mathlib.Algebra.Order.Field.Rat
import Mathlib.Data.List.Dedup

/-!
# Sampling and grouping the processes

`collect_programs` reads the processes twice, groups them by name and sorts by
usage.  The iteration orders of its hash maps and the ties of `std::sort` are
not determined, so it is a relation here.  The percentages are rationals, and the
arithmetic that computes them is a parameter: that of `double`s rounds the result
of every operation, and the exact one does not.
-/

namespace BetterCpu

open Ranking

/-- A valid result of `read_process_times`. -/
structure ProcessTimes where
  name : Text
  totalTicks : UInt64

structure ProcessSample where
  pid : Int32
  name : Text
  cpuPercent : ℚ
  deriving DecidableEq

structure ProgramGroup where
  name : Text
  totalCpuPercent : ℚ
  processes : List ProcessSample
  deriving DecidableEq

/-- What one call of `collect_programs` reads: the pids in directory order and
the times of its two passes. -/
structure Sampling where
  pids : List Int32
  firstTimes : Int32 → Option ProcessTimes
  secondTimes : Int32 → Option ProcessTimes

namespace ProcessManager

structure Clock where
  ticksPerSecond : ℕ
  sampleIntervalMs : ℕ
  ticksPerSecond_pos : 0 < ticksPerSecond
  sampleIntervalMs_pos : 0 < sampleIntervalMs

def Clock.cpuPercent (round : Arithmetic) (clock : Clock) (tickDelta : UInt64) : ℚ :=
  let elapsedSeconds := round (clock.sampleIntervalMs / 1000)
  round (round (round (round tickDelta.toNat / round clock.ticksPerSecond) / elapsedSeconds) *
    100)

/-- One turn of the loop over the first samples, unless it continues. -/
def processSample (round : Arithmetic) (clock : Clock) (s : Sampling) (pid : Int32) :
    Option ProcessSample :=
  match s.firstTimes pid, s.secondTimes pid with
  | some firstTimes, some secondTimes =>
      if secondTimes.totalTicks < firstTimes.totalTicks then none
      else some ⟨pid, secondTimes.name,
        clock.cpuPercent round (secondTimes.totalTicks - firstTimes.totalTicks)⟩
  | _, _ => none

def firstSamples (s : Sampling) : List Int32 :=
  (s.pids.filter fun pid ↦ (s.firstTimes pid).isSome).dedup

/-- `programs_by_name[sample.name]` with the sample added to it. -/
def addSample (round : Arithmetic) (programs : List ProgramGroup) (sample : ProcessSample) :
    List ProgramGroup :=
  if sample.name ∈ programs.map ProgramGroup.name then
    programs.map fun program ↦
      if program.name = sample.name then
        { program with
          totalCpuPercent := round (program.totalCpuPercent + sample.cpuPercent)
          processes := program.processes ++ [sample] }
      else program
  else programs ++ [⟨sample.name, round (0 + sample.cpuPercent), [sample]⟩]

def groupByName (round : Arithmetic) (samples : List ProcessSample) : List ProgramGroup :=
  samples.foldl (addSample round) []

structure SortsProcesses (program sorted : ProgramGroup) : Prop where
  name : sorted.name = program.name
  totalCpuPercent : sorted.totalCpuPercent = program.totalCpuPercent
  processes : IsRanking ProcessSample.cpuPercent program.processes sorted.processes

/-- `collect_programs` may return `programs`. -/
def Collects (round : Arithmetic) (clock : Clock) (s : Sampling)
    (programs : List ProgramGroup) : Prop :=
  ∃ order : List Int32, order.Perm (firstSamples s) ∧
    ∃ sorted, List.Forall₂ SortsProcesses
        (groupByName round (order.filterMap (processSample round clock s))) sorted ∧
      IsRanking ProgramGroup.totalCpuPercent sorted programs

/-! ## Grouping -/

/-- The sum of the usages in this order. -/
def accumulate (round : Arithmetic) (usages : List ℚ) : ℚ :=
  usages.foldl (fun total usage ↦ round (total + usage)) 0

theorem accumulate_append_singleton (round : Arithmetic) (usages : List ℚ) (usage : ℚ) :
    accumulate round (usages ++ [usage]) = round (accumulate round usages + usage) := by
  simp [accumulate]

theorem accumulate_exact (usages : List ℚ) : accumulate .exact usages = usages.sum := by
  rw [List.sum_eq_foldl]
  rfl

variable {round : Arithmetic}

theorem groupByName_append (round : Arithmetic) (samples : List ProcessSample)
    (sample : ProcessSample) :
    groupByName round (samples ++ [sample]) =
      addSample round (groupByName round samples) sample := by
  simp [groupByName]

theorem map_name_addSample (programs : List ProgramGroup) (sample : ProcessSample) :
    (addSample round programs sample).map ProgramGroup.name =
      if sample.name ∈ programs.map ProgramGroup.name then programs.map ProgramGroup.name
      else programs.map ProgramGroup.name ++ [sample.name] := by
  unfold addSample
  split
  · rw [List.map_map]
    apply List.map_congr_left
    intro program _
    simp only [Function.comp]
    split <;> rfl
  · simp

theorem mem_addSample {programs : List ProgramGroup} {sample : ProcessSample}
    {program : ProgramGroup} (h : program ∈ addSample round programs sample) :
    program ∈ programs ∧ program.name ≠ sample.name ∨
      (∃ old ∈ programs, old.name = sample.name ∧ program = ⟨old.name,
        round (old.totalCpuPercent + sample.cpuPercent), old.processes ++ [sample]⟩) ∨
      sample.name ∉ programs.map ProgramGroup.name ∧
        program = ⟨sample.name, round (0 + sample.cpuPercent), [sample]⟩ := by
  unfold addSample at h
  split at h
  · obtain ⟨old, hold, rfl⟩ := List.mem_map.mp h
    by_cases hname : old.name = sample.name
    · exact Or.inr (Or.inl ⟨old, hold, hname, by simp [hname]⟩)
    · exact Or.inl (by simpa [hname] using hold)
  · next hnew =>
      rcases List.mem_append.mp h with hold | hsingle
      · refine Or.inl ⟨hold, ?_⟩
        rintro hname
        exact hnew (hname ▸ List.mem_map_of_mem hold)
      · exact Or.inr (Or.inr ⟨hnew, List.mem_singleton.mp hsingle⟩)

/-- The groups are the samples by their names: no name occurs twice, and each
group has exactly its samples and their sum. -/
structure Groups (round : Arithmetic) (samples : List ProcessSample)
    (programs : List ProgramGroup) : Prop where
  nodup : (programs.map ProgramGroup.name).Nodup
  names : ∀ name, name ∈ programs.map ProgramGroup.name ↔ name ∈ samples.map ProcessSample.name
  processes : ∀ program ∈ programs,
    program.processes = samples.filter fun sample ↦ sample.name = program.name
  total : ∀ program ∈ programs, program.totalCpuPercent =
    accumulate round (program.processes.map ProcessSample.cpuPercent)

theorem Groups.addSample {samples : List ProcessSample} {programs : List ProgramGroup}
    (h : Groups round samples programs) (sample : ProcessSample) :
    Groups round (samples ++ [sample]) (addSample round programs sample) where
  nodup := by
    rw [map_name_addSample]
    split
    · exact h.nodup
    · next hnew =>
        apply h.nodup.append (List.nodup_singleton _)
        simpa [List.disjoint_singleton] using hnew
  names name := by
    rw [map_name_addSample, List.map_append, List.mem_append, ← h.names]
    split
    · next hold =>
        simp only [List.map_cons, List.map_nil, List.mem_singleton]
        exact ⟨Or.inl, fun hname ↦ hname.elim id fun heq ↦ heq ▸ hold⟩
    · simp
  processes program hprogram := by
    rw [List.filter_append]
    rcases mem_addSample hprogram with ⟨hold, hname⟩ | ⟨old, hold, hname, rfl⟩ | ⟨hnew, rfl⟩
    · simp [h.processes program hold, hname.symm]
    · simp [h.processes old hold, hname]
    · have hnone : ∀ x ∈ samples, ¬ x.name = sample.name := fun x hx heq ↦
        hnew ((h.names _).mpr (heq ▸ List.mem_map_of_mem hx))
      simpa using hnone
  total program hprogram := by
    rcases mem_addSample hprogram with ⟨hold, -⟩ | ⟨old, hold, -, rfl⟩ | ⟨-, rfl⟩
    · exact h.total program hold
    · rw [List.map_append, List.map_singleton, accumulate_append_singleton, ← h.total old hold]
    · rfl

theorem groups_groupByName (round : Arithmetic) (samples : List ProcessSample) :
    Groups round samples (groupByName round samples) := by
  induction samples using List.reverseRecOn with
  | nil => constructor <;> simp [groupByName]
  | append_singleton samples sample ih =>
      rw [groupByName_append]
      exact ih.addSample sample

end ProcessManager
end BetterCpu
