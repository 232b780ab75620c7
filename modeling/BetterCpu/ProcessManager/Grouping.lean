import BetterCpu.ProcessManager.Outcomes

/-!
# The processes in their groups

What a result of `collect_programs` says about the processes that were there in
both passes: none is lost, counted twice or put under another name.
-/

namespace BetterCpu.ProcessManager

open Ranking

/-- Both readings of the process are valid and its counter did not decrease. -/
structure Counted (s : Sampling) (pid : Int32) (first second : ProcessTimes) : Prop where
  listed : pid ∈ s.pids
  firstTimes : s.firstTimes pid = some first
  secondTimes : s.secondTimes pid = some second
  le : first.totalTicks ≤ second.totalTicks

/-- The usage that the ticks of two readings make, over the rationals. -/
def usage (clock : Clock) (first second : ProcessTimes) : ℚ :=
  ((second.totalTicks.toNat : ℚ) - first.totalTicks.toNat) / clock.ticksPerSecond /
    (clock.sampleIntervalMs / 1000) * 100

/-- The groups are a partition of the counted processes by the name of the
second pass, in whatever arithmetic. -/
structure Grouped (s : Sampling) (programs : List ProgramGroup) : Prop where
  occurs : ∀ pid first second, Counted s pid first second →
    ∃ program ∈ programs, program.name = second.name ∧
      pid ∈ program.processes.map ProcessSample.pid
  once : (programs.flatMap fun program ↦ program.processes.map ProcessSample.pid).Nodup
  counted : ∀ program ∈ programs, ∀ sample ∈ program.processes,
    ∃ first second, Counted s sample.pid first second ∧ second.name = program.name ∧
      sample.name = second.name
  names : (programs.map ProgramGroup.name).Nodup
  nonempty : ∀ program ∈ programs, program.processes ≠ []

/-- The partition with the usages, the totals and both orders, over the
rationals. -/
structure Partitions (clock : Clock) (s : Sampling) (programs : List ProgramGroup) : Prop
    extends Grouped s programs where
  sample : ∀ program ∈ programs, ∀ sample ∈ program.processes,
    ∃ first second, Counted s sample.pid first second ∧ second.name = program.name ∧
      sample.name = second.name ∧ sample.cpuPercent = usage clock first second ∧
        0 ≤ sample.cpuPercent
  total : ∀ program ∈ programs,
    program.totalCpuPercent = (program.processes.map ProcessSample.cpuPercent).sum
  processes_sorted : ∀ program ∈ programs,
    program.processes.Pairwise fun x y ↦ y.cpuPercent ≤ x.cpuPercent
  sorted : programs.Pairwise fun x y ↦ y.totalCpuPercent ≤ x.totalCpuPercent

variable {round : Arithmetic} {clock : Clock} {s : Sampling}

/-! ## One sample -/

theorem cpuPercent_sub {first second : ProcessTimes} (h : first.totalTicks ≤ second.totalTicks) :
    clock.cpuPercent .exact (second.totalTicks - first.totalTicks) = usage clock first second := by
  have hle : first.totalTicks.toNat ≤ second.totalTicks.toNat := UInt64.le_iff_toNat_le.mp h
  rw [Clock.cpuPercent, UInt64.toNat_sub_of_le _ _ h, Nat.cast_sub hle, usage]
  rfl

theorem cpuPercent_nonneg (tickDelta : UInt64) : 0 ≤ clock.cpuPercent .exact tickDelta := by
  unfold Clock.cpuPercent
  simp only [Arithmetic.exact, id_eq]
  positivity

theorem processSample_eq_some_iff {pid : Int32} {sample : ProcessSample} :
    processSample round clock s pid = some sample ↔
      ∃ first second, s.firstTimes pid = some first ∧ s.secondTimes pid = some second ∧
        first.totalTicks ≤ second.totalTicks ∧
          sample = ⟨pid, second.name,
            clock.cpuPercent round (second.totalTicks - first.totalTicks)⟩ := by
  unfold processSample
  cases hfirst : s.firstTimes pid with
  | none => simp
  | some first =>
      cases hsecond : s.secondTimes pid with
      | none => simp
      | some second =>
          simp only [← UInt64.not_le, ite_not]
          constructor
          · intro h
            by_cases hle : first.totalTicks ≤ second.totalTicks
            · rw [if_pos hle, Option.some.injEq] at h
              exact ⟨first, second, rfl, rfl, hle, h.symm⟩
            · simp [hle] at h
          · rintro ⟨_, _, ⟨⟩, ⟨⟩, hle, rfl⟩
            rw [if_pos hle]

theorem mem_samples_iff {sample : ProcessSample} :
    sample ∈ samples round clock s ↔ ∃ first second, Counted s sample.pid first second ∧
      sample.name = second.name ∧
        sample.cpuPercent = clock.cpuPercent round (second.totalTicks - first.totalTicks) := by
  obtain ⟨pid, name, cpuPercent⟩ := sample
  simp only [samples, firstSamples, List.mem_filterMap, List.mem_dedup, List.mem_filter,
    processSample_eq_some_iff, ProcessSample.mk.injEq]
  constructor
  · rintro ⟨_, ⟨hlisted, -⟩, first, second, hfirst, hsecond, hle, rfl, rfl, rfl⟩
    exact ⟨first, second, ⟨hlisted, hfirst, hsecond, hle⟩, rfl, rfl⟩
  · rintro ⟨first, second, hcounted, rfl, rfl⟩
    exact ⟨pid, ⟨hcounted.listed, by simp [hcounted.firstTimes]⟩, first, second,
      hcounted.firstTimes, hcounted.secondTimes, hcounted.le, rfl, rfl, rfl⟩

/-! ## The groups -/

variable {programs : List ProgramGroup}

theorem IsOutcome.mem_processes_iff (h : IsOutcome round clock s programs)
    {program : ProgramGroup} (hprogram : program ∈ programs) {sample : ProcessSample} :
    sample ∈ program.processes ↔
      sample ∈ samples round clock s ∧ sample.name = program.name := by
  rw [(h.processes program hprogram).perm.mem_iff, mem_programSamples]

theorem IsOutcome.exists_sample (h : IsOutcome round clock s programs) {program : ProgramGroup}
    (hprogram : program ∈ programs) :
    ∃ sample ∈ samples round clock s, sample.name = program.name := by
  have hname : program.name ∈ programNames round clock s :=
    h.names.mem_iff.mp (List.mem_map_of_mem hprogram)
  rw [programNames, List.mem_dedup] at hname
  exact List.mem_map.mp hname

theorem IsOutcome.nodup_pids (h : IsOutcome round clock s programs) :
    (programs.flatMap fun program ↦ program.processes.map ProcessSample.pid).Nodup := by
  have hperm := h.flatMap_perm fun program hprogram ↦ (h.processes program hprogram).perm
  rw [← List.map_flatMap]
  exact (hperm.map ProcessSample.pid).nodup_iff.mpr nodup_map_pid_samples

theorem IsOutcome.grouped (h : IsOutcome round clock s programs) : Grouped s programs where
  occurs pid first second hcounted := by
    have hsample : ⟨pid, second.name, clock.cpuPercent round
        (second.totalTicks - first.totalTicks)⟩ ∈ samples round clock s :=
      mem_samples_iff.mpr ⟨first, second, hcounted, rfl, rfl⟩
    obtain ⟨program, hprogram, hname⟩ := h.exists_program hsample
    have hmem := (h.mem_processes_iff hprogram).mpr ⟨hsample, hname.symm⟩
    exact ⟨program, hprogram, hname, List.mem_map.mpr ⟨_, hmem, rfl⟩⟩
  once := h.nodup_pids
  counted program hprogram sample hsample := by
    obtain ⟨hmem, hname⟩ := (h.mem_processes_iff hprogram).mp hsample
    obtain ⟨first, second, hcounted, hsecond, -⟩ := mem_samples_iff.mp hmem
    exact ⟨first, second, hcounted, hsecond.symm.trans hname, hsecond⟩
  names := h.nodup_names
  nonempty program hprogram := by
    obtain ⟨sample, hsample⟩ := h.exists_sample hprogram
    exact List.ne_nil_of_mem ((h.mem_processes_iff hprogram).mpr hsample)

theorem IsOutcome.partitions (h : IsOutcome .exact clock s programs) :
    Partitions clock s programs where
  toGrouped := h.grouped
  sample program hprogram sample hsample := by
    obtain ⟨hmem, hname⟩ := (h.mem_processes_iff hprogram).mp hsample
    obtain ⟨first, second, hcounted, hsecond, husage⟩ := mem_samples_iff.mp hmem
    refine ⟨first, second, hcounted, hsecond.symm.trans hname, hsecond, ?_, ?_⟩
    · rw [husage, cpuPercent_sub hcounted.le]
    · rw [husage]
      exact cpuPercent_nonneg _
  total program hprogram := by
    rw [isTotal_exact_iff.mp (h.total program hprogram)]
    exact ((h.processes program hprogram).perm.map _).sum_eq.symm
  processes_sorted program hprogram := (h.processes program hprogram).sorted
  sorted := h.sorted

theorem exists_isOutcome (round : Arithmetic) (clock : Clock) (s : Sampling) :
    ∃ programs, IsOutcome round clock s programs := by
  let total (name : Text) : ℚ :=
    accumulate round ((programSamples round clock s name).map ProcessSample.cpuPercent)
  obtain ⟨names, hnames⟩ := exists_isRanking total (programNames round clock s)
  choose processes hprocesses using fun name ↦
    exists_isRanking ProcessSample.cpuPercent (programSamples round clock s name)
  refine ⟨names.map fun name ↦ ⟨name, total name, processes name⟩, ?_, ?_, ?_, ?_⟩
  · simpa [Function.comp_def] using hnames.perm
  · simp only [List.forall_mem_map]
    exact fun name _ ↦ ⟨_, List.Perm.refl _, rfl⟩
  · simpa using fun name _ ↦ hprocesses name
  · simpa [List.pairwise_map] using hnames.sorted

/-- Whatever the two passes read and whatever the orders of iteration are,
`collect_programs` returns over the rationals, and what it returns is a partition
of the counted processes. -/
theorem collects_partitions (clock : Clock) (s : Sampling) :
    (∃ programs, Collects .exact clock s programs) ∧
      ∀ programs, Collects .exact clock s programs → Partitions clock s programs := by
  constructor
  · obtain ⟨programs, hprograms⟩ := exists_isOutcome .exact clock s
    exact ⟨programs, collects_of_isOutcome hprograms⟩
  · intro programs hprograms
    exact (isOutcome_of_collects hprograms).partitions

end BetterCpu.ProcessManager
