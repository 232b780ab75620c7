import BetterCpu.ProcessManager

/-!
# The results of sampling

The results that `collect_programs` may return are exactly the rankings of the
programs by their totals, with a ranking of its samples for each program; a total
is the sum of its samples in some order.
-/

namespace BetterCpu.ProcessManager

open Ranking

variable {round : Arithmetic} {clock : Clock} {s : Sampling}

def samples (round : Arithmetic) (clock : Clock) (s : Sampling) : List ProcessSample :=
  (firstSamples s).filterMap (processSample round clock s)

def programNames (round : Arithmetic) (clock : Clock) (s : Sampling) : List Text :=
  ((samples round clock s).map ProcessSample.name).dedup

def programSamples (round : Arithmetic) (clock : Clock) (s : Sampling) (name : Text) :
    List ProcessSample :=
  (samples round clock s).filter fun sample ↦ sample.name = name

/-- The total is that of the samples in some order. -/
def IsTotal (round : Arithmetic) (samples : List ProcessSample) (total : ℚ) : Prop :=
  ∃ order : List ProcessSample, order.Perm samples ∧
    total = accumulate round (order.map ProcessSample.cpuPercent)

/-- A ranking of the programs, and within each program of its processes. -/
structure IsOutcome (round : Arithmetic) (clock : Clock) (s : Sampling)
    (programs : List ProgramGroup) : Prop where
  names : (programs.map ProgramGroup.name).Perm (programNames round clock s)
  total : ∀ program ∈ programs,
    IsTotal round (programSamples round clock s program.name) program.totalCpuPercent
  processes : ∀ program ∈ programs,
    IsRanking ProcessSample.cpuPercent (programSamples round clock s program.name)
      program.processes
  sorted : programs.Pairwise fun x y ↦ y.totalCpuPercent ≤ x.totalCpuPercent

theorem IsTotal.of_perm {xs ys : List ProcessSample} {total : ℚ} (h : IsTotal round xs total)
    (hperm : xs.Perm ys) : IsTotal round ys total := by
  obtain ⟨order, horder, htotal⟩ := h
  exact ⟨order, horder.trans hperm, htotal⟩

theorem isTotal_exact_iff {samples : List ProcessSample} {total : ℚ} :
    IsTotal .exact samples total ↔ total = (samples.map ProcessSample.cpuPercent).sum := by
  simp only [IsTotal, accumulate_exact]
  constructor
  · rintro ⟨order, horder, rfl⟩
    exact (horder.map _).sum_eq
  · rintro rfl
    exact ⟨samples, List.Perm.refl _, rfl⟩

/-! ## One sample for each process -/

theorem pid_of_processSample {pid : Int32} {sample : ProcessSample}
    (h : processSample round clock s pid = some sample) : sample.pid = pid := by
  unfold processSample at h
  split at h
  · split at h
    · cases h
    · cases h
      rfl
  · cases h

theorem map_pid_samples : (samples round clock s).map ProcessSample.pid =
    (firstSamples s).filter fun pid ↦ (processSample round clock s pid).isSome := by
  rw [samples, List.map_filterMap, ← List.filterMap_eq_filter]
  apply List.filterMap_congr
  intro pid _
  cases hsample : processSample round clock s pid with
  | none => simp [Option.guard, hsample]
  | some sample => simp [Option.guard, hsample, pid_of_processSample hsample]

theorem nodup_map_pid_samples : ((samples round clock s).map ProcessSample.pid).Nodup := by
  rw [map_pid_samples]
  exact (List.nodup_dedup _).filter _

theorem processSample_pid {sample : ProcessSample} (h : sample ∈ samples round clock s) :
    processSample round clock s sample.pid = some sample := by
  obtain ⟨pid, -, hsample⟩ := List.mem_filterMap.mp h
  rw [pid_of_processSample hsample, hsample]

/-- Every order of the samples is one that the first pass may be gone through
in. -/
theorem exists_order {order : List ProcessSample} (h : order.Perm (samples round clock s)) :
    ∃ pids : List Int32, pids.Perm (firstSamples s) ∧
      pids.filterMap (processSample round clock s) = order := by
  let skipped := (firstSamples s).filter fun pid ↦ !(processSample round clock s pid).isSome
  refine ⟨order.map ProcessSample.pid ++ skipped, ?_, ?_⟩
  · have hpids := h.map ProcessSample.pid
    rw [map_pid_samples] at hpids
    exact (hpids.append_right _).trans (List.filter_append_perm _ _)
  · have hread : order.filterMap (processSample round clock s ∘ ProcessSample.pid) = order := by
      calc order.filterMap (processSample round clock s ∘ ProcessSample.pid)
          = order.filterMap some := List.filterMap_congr fun sample hsample ↦
            processSample_pid (h.mem_iff.mp hsample)
        _ = order := List.filterMap_some
    have hskipped : skipped.filterMap (processSample round clock s) = [] := by
      rw [List.filterMap_eq_nil_iff]
      intro pid hpid
      simpa using (List.mem_filter.mp hpid).2
    rw [List.filterMap_append, List.filterMap_map, hread, hskipped, List.append_nil]

/-! ## Sorting the groups one by one -/

theorem map_name_of_sortsProcesses {programs sorted : List ProgramGroup}
    (h : List.Forall₂ SortsProcesses programs sorted) :
    sorted.map ProgramGroup.name = programs.map ProgramGroup.name := by
  induction h with
  | nil => rfl
  | cons hsorts _ ih => rw [List.map_cons, List.map_cons, hsorts.name, ih]

theorem exists_of_sortsProcesses {programs sorted : List ProgramGroup}
    (h : List.Forall₂ SortsProcesses programs sorted) {program : ProgramGroup}
    (hprogram : program ∈ sorted) : ∃ old ∈ programs, SortsProcesses old program := by
  induction h with
  | nil => simp at hprogram
  | cons hsorts _ ih =>
      rcases List.mem_cons.mp hprogram with rfl | hrest
      · exact ⟨_, List.mem_cons_self, hsorts⟩
      · obtain ⟨old, hold, hsorts'⟩ := ih hrest
        exact ⟨old, List.mem_cons_of_mem _ hold, hsorts'⟩

theorem forall₂_of_map_eq {α β γ : Type*} {r : α → β → Prop} {f : α → γ} {g : β → γ}
    {xs : List α} {ys : List β} (h : xs.map f = ys.map g)
    (hr : ∀ x ∈ xs, ∀ y ∈ ys, f x = g y → r x y) : List.Forall₂ r xs ys := by
  induction xs generalizing ys with
  | nil =>
      obtain rfl : ys = [] := by simpa using h.symm
      exact .nil
  | cons x xs ih =>
      cases ys with
      | nil => simp at h
      | cons y ys =>
          simp only [List.map_cons, List.cons.injEq] at h
          exact .cons (hr x (by simp) y (by simp) h.1)
            (ih h.2 fun a ha b hb ↦ hr a (by simp [ha]) b (by simp [hb]))

/-! ## The groups in any order of iteration -/

theorem Groups.names_perm {xs : List ProcessSample} (hperm : xs.Perm (samples round clock s))
    {programs : List ProgramGroup} (h : Groups round xs programs) :
    (programs.map ProgramGroup.name).Perm (programNames round clock s) := by
  apply (List.perm_ext_iff_of_nodup h.nodup (List.nodup_dedup _)).mpr
  intro name
  rw [h.names, List.mem_dedup, (hperm.map _).mem_iff]

theorem isOutcome_of_collects {programs : List ProgramGroup}
    (h : Collects round clock s programs) : IsOutcome round clock s programs := by
  obtain ⟨order, horder, sorted, hsorts, hranking⟩ := h
  have hperm : (order.filterMap (processSample round clock s)).Perm (samples round clock s) :=
    horder.filterMap _
  have hgroups := groups_groupByName round (order.filterMap (processSample round clock s))
  have hprogram : ∀ program ∈ programs,
      IsTotal round (programSamples round clock s program.name) program.totalCpuPercent ∧
        IsRanking ProcessSample.cpuPercent (programSamples round clock s program.name)
          program.processes := by
    intro program hmem
    obtain ⟨old, hold, hsort⟩ := exists_of_sortsProcesses hsorts (hranking.perm.mem_iff.mp hmem)
    have hprocesses : old.processes.Perm (programSamples round clock s program.name) := by
      rw [hgroups.processes old hold, hsort.name]
      exact hperm.filter _
    exact ⟨⟨old.processes, hprocesses, hsort.totalCpuPercent.trans (hgroups.total old hold)⟩,
      hsort.processes.perm.trans hprocesses, hsort.processes.sorted⟩
  refine ⟨?_, fun program hmem ↦ (hprogram program hmem).1,
    fun program hmem ↦ (hprogram program hmem).2, hranking.sorted⟩
  apply (hranking.perm.map _).trans
  rw [map_name_of_sortsProcesses hsorts]
  exact hgroups.names_perm hperm

/-! ### An order of iteration for every outcome -/

variable {programs : List ProgramGroup}

theorem IsOutcome.nodup_names (h : IsOutcome round clock s programs) :
    (programs.map ProgramGroup.name).Nodup :=
  h.names.nodup_iff.mpr (List.nodup_dedup _)

theorem IsOutcome.exists_program (h : IsOutcome round clock s programs) {sample : ProcessSample}
    (hsample : sample ∈ samples round clock s) :
    ∃ program ∈ programs, program.name = sample.name := by
  have hname : sample.name ∈ programs.map ProgramGroup.name := by
    rw [h.names.mem_iff, programNames, List.mem_dedup]
    exact List.mem_map_of_mem hsample
  exact List.mem_map.mp hname

theorem mem_programSamples {name : Text} {sample : ProcessSample} :
    sample ∈ programSamples round clock s name ↔
      sample ∈ samples round clock s ∧ sample.name = name := by
  simp [programSamples]

/-- The samples of the programs, one program after the other. -/
theorem IsOutcome.flatMap_perm (h : IsOutcome round clock s programs)
    {order : ProgramGroup → List ProcessSample}
    (horder : ∀ program ∈ programs,
      (order program).Perm (programSamples round clock s program.name)) :
    (programs.flatMap order).Perm (samples round clock s) := by
  have hsamples : (samples round clock s).Nodup := nodup_map_pid_samples.of_map
  have hmem {program : ProgramGroup} (hprogram : program ∈ programs) {sample : ProcessSample} :
      sample ∈ order program ↔ sample ∈ samples round clock s ∧ sample.name = program.name := by
    rw [(horder program hprogram).mem_iff, mem_programSamples]
  refine (List.perm_ext_iff_of_nodup ?_ hsamples).mpr fun sample ↦ ?_
  · rw [List.nodup_flatMap]
    refine ⟨fun program hprogram ↦
      (horder program hprogram).nodup_iff.mpr (hsamples.filter _), ?_⟩
    have hnames : programs.Pairwise fun x y ↦ x.name ≠ y.name :=
      List.pairwise_map.mp h.nodup_names
    refine hnames.imp_of_mem fun {x y} hx hy hne sample hsx hsy ↦ ?_
    exact hne (((hmem hx).mp hsx).2.symm.trans ((hmem hy).mp hsy).2)
  · rw [List.mem_flatMap]
    constructor
    · rintro ⟨program, hprogram, hsample⟩
      exact ((hmem hprogram).mp hsample).1
    · intro hsample
      obtain ⟨program, hprogram, hname⟩ := h.exists_program hsample
      exact ⟨program, hprogram, (hmem hprogram).mpr ⟨hsample, hname.symm⟩⟩

/-- Each program finds its own samples among those of all. -/
theorem IsOutcome.filter_flatMap (h : IsOutcome round clock s programs)
    {order : ProgramGroup → List ProcessSample}
    (horder : ∀ program ∈ programs,
      (order program).Perm (programSamples round clock s program.name))
    {program : ProgramGroup} (hprogram : program ∈ programs) :
    (programs.flatMap order).filter (fun sample ↦ sample.name = program.name) =
      order program := by
  have hname {other : ProgramGroup} (hother : other ∈ programs) {sample : ProcessSample}
      (hsample : sample ∈ order other) : sample.name = other.name :=
    (mem_programSamples.mp ((horder other hother).mem_iff.mp hsample)).2
  obtain ⟨front, back, rfl⟩ := List.append_of_mem hprogram
  have hne : ∀ other ∈ front ++ back, other.name ≠ program.name := by
    have hnodup := h.nodup_names
    rw [List.map_append, List.map_cons, List.nodup_middle, List.nodup_cons, ← List.map_append]
      at hnodup
    intro other hother heq
    exact hnodup.1 (heq ▸ List.mem_map_of_mem hother)
  have hnone (others : List ProgramGroup) (hsub : ∀ other ∈ others, other ∈ front ++ back) :
      (others.flatMap order).filter (fun sample ↦ sample.name = program.name) = [] := by
    rw [List.filter_eq_nil_iff]
    intro sample hsample
    obtain ⟨other, hother, hsample⟩ := List.mem_flatMap.mp hsample
    have hmem : other ∈ front ++ program :: back := by
      rcases List.mem_append.mp (hsub other hother) with hfront | hback
      · exact List.mem_append_left _ hfront
      · exact List.mem_append_right _ (List.mem_cons_of_mem _ hback)
    rw [hname hmem hsample]
    simpa using hne other (hsub other hother)
  have hself : (order program).filter (fun sample ↦ sample.name = program.name) =
      order program :=
    List.filter_eq_self.mpr fun sample hsample ↦ by simpa using hname hprogram hsample
  rw [List.flatMap_append, List.flatMap_cons, List.filter_append, List.filter_append, hself,
    hnone front fun other hother ↦ List.mem_append_left _ hother,
    hnone back fun other hother ↦ List.mem_append_right _ hother, List.nil_append,
    List.append_nil]

theorem collects_of_isOutcome (h : IsOutcome round clock s programs) :
    Collects round clock s programs := by
  -- the processes of each program are gone through in the order of its total
  choose! order horder htotal using h.total
  obtain ⟨pids, hpids, hread⟩ := exists_order (h.flatMap_perm horder)
  have hgroups : Groups round (programs.flatMap order)
      (groupByName round (programs.flatMap order)) :=
    groups_groupByName round _
  have hnames := (hgroups.names_perm (h.flatMap_perm horder)).trans h.names.symm
  -- the programs in the order of the groups
  obtain ⟨sorted, heq, hperm⟩ : ∃ sorted : List ProgramGroup,
      (groupByName round (programs.flatMap order)).map ProgramGroup.name =
        sorted.map ProgramGroup.name ∧ sorted.Perm programs := by
    have hcomp := congrFun₂ (List.eq_map_comp_perm ProgramGroup.name)
      ((groupByName round (programs.flatMap order)).map ProgramGroup.name) programs
    exact hcomp.mpr hnames
  refine ⟨pids, hpids, sorted, ?_, hperm.symm, h.sorted⟩
  rw [hread]
  apply forall₂_of_map_eq heq
  intro old hold program hprogram hname
  have hmem := hperm.mem_iff.mp hprogram
  have hprocesses : old.processes = order program := by
    rw [hgroups.processes old hold, hname, h.filter_flatMap horder hmem]
  refine ⟨hname.symm, ?_, ?_, (h.processes program hmem).sorted⟩
  · rw [hgroups.total old hold, hprocesses, htotal program hmem]
  · rw [hprocesses]
    exact (h.processes program hmem).perm.trans (horder program hmem).symm

/-- The results of `collect_programs` are the outcomes. -/
theorem collects_iff (round : Arithmetic) (clock : Clock) (s : Sampling)
    (programs : List ProgramGroup) :
    Collects round clock s programs ↔ IsOutcome round clock s programs :=
  ⟨isOutcome_of_collects, collects_of_isOutcome⟩

end BetterCpu.ProcessManager
