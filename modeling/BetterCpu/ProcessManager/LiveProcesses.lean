import BetterCpu.ProcessManager.Outcomes

/-!
# Sampling the live processes

An invocation reads the live processes in some order of the directory, with
some tick counters.  Its possible results are the rankings of the names by their
totals and of the pids by their usages, and a total depends on the order in which
the usages are added.
-/

namespace BetterCpu.ProcessManager

open Ranking

/-- The processes that are alive, without those of the commands themselves. -/
structure LiveProcesses where
  pids : List Int32
  nodup : pids.Nodup
  name : Int32 → Text

structure Invocation (live : LiveProcesses) where
  order : List Int32
  order_perm : order.Perm live.pids
  firstTicks : Int32 → UInt64
  secondTicks : Int32 → UInt64

namespace Invocation

variable {live : LiveProcesses} (a : Invocation live)

def sampling : Sampling where
  pids := a.order
  firstTimes pid := if pid ∈ live.pids then some ⟨live.name pid, a.firstTicks pid⟩ else none
  secondTimes pid := if pid ∈ live.pids then some ⟨live.name pid, a.secondTicks pid⟩ else none

def counted : List Int32 :=
  live.pids.filter fun pid ↦ a.firstTicks pid ≤ a.secondTicks pid

def names : List Text :=
  (a.counted.map live.name).dedup

def members (name : Text) : List Int32 :=
  a.counted.filter fun pid ↦ live.name pid = name

def usage (round : Arithmetic) (clock : Clock) (pid : Int32) : ℚ :=
  clock.cpuPercent round (a.secondTicks pid - a.firstTicks pid)

/-- The totals of the programs, for all the orders in which their usages may be
added. -/
def totals (round : Arithmetic) (clock : Clock) : Set (Text → ℚ) :=
  {total | ∀ name ∈ a.names, ∃ order : List Int32, order.Perm (a.members name) ∧
    total name = accumulate round (order.map (a.usage round clock))}

def sample (round : Arithmetic) (clock : Clock) (pid : Int32) : ProcessSample :=
  ⟨pid, live.name pid, a.usage round clock pid⟩

def program (round : Arithmetic) (clock : Clock) (total : Text → ℚ) (pids : Text → List Int32)
    (name : Text) : ProgramGroup :=
  ⟨name, total name, (pids name).map (a.sample round clock)⟩

variable {a} {round : Arithmetic} {clock : Clock}

theorem mem_members {name : Text} {pid : Int32} :
    pid ∈ a.members name ↔ pid ∈ a.counted ∧ live.name pid = name := by
  simp [members]

theorem mem_names {name : Text} : name ∈ a.names ↔ ∃ pid ∈ a.counted, live.name pid = name := by
  simp [names]

theorem nodup_counted : a.counted.Nodup := live.nodup.filter _

theorem nodup_members (name : Text) : (a.members name).Nodup := nodup_counted.filter _

theorem nodup_names : a.names.Nodup := List.nodup_dedup _

theorem totals_nonempty (a : Invocation live) (round : Arithmetic) (clock : Clock) :
    (a.totals round clock).Nonempty :=
  ⟨fun name ↦ accumulate round ((a.members name).map (a.usage round clock)),
    fun _ _ ↦ ⟨_, List.Perm.refl _, rfl⟩⟩

/-! ## The samples -/

theorem processSample_sampling {pid : Int32} (h : pid ∈ live.pids) :
    processSample round clock a.sampling pid =
      if a.firstTicks pid ≤ a.secondTicks pid then some (a.sample round clock pid)
      else none := by
  simp only [processSample, sampling, h, if_true, ← UInt64.not_le, ite_not, sample, usage]

theorem firstSamples_sampling : firstSamples a.sampling = a.order := by
  have hall : ∀ pid ∈ a.order, (a.sampling.firstTimes pid).isSome = true := fun pid hpid ↦ by
    simp [sampling, a.order_perm.mem_iff.mp hpid]
  rw [firstSamples, show a.sampling.pids = a.order from rfl, List.filter_eq_self.mpr hall,
    (a.order_perm.nodup_iff.mpr live.nodup).dedup]

theorem samples_perm (a : Invocation live) (round : Arithmetic) (clock : Clock) :
    (samples round clock a.sampling).Perm (a.counted.map (a.sample round clock)) := by
  have hfilterMap : live.pids.filterMap (processSample round clock a.sampling) =
      a.counted.map (a.sample round clock) := by
    rw [counted, ← List.filterMap_eq_map, List.filterMap_filter]
    apply List.filterMap_congr
    intro pid hpid
    simp [processSample_sampling hpid]
  rw [samples, firstSamples_sampling, ← hfilterMap]
  exact a.order_perm.filterMap _

theorem programNames_perm : (programNames round clock a.sampling).Perm a.names := by
  have hperm := (samples_perm a round clock).map ProcessSample.name
  rw [List.map_map] at hperm
  exact hperm.dedup

theorem programSamples_perm (name : Text) :
    (programSamples round clock a.sampling name).Perm
      ((a.members name).map (a.sample round clock)) := by
  have hperm := (samples_perm a round clock).filter
    fun sample ↦ decide (sample.name = name)
  rwa [List.filter_map] at hperm

/-! ## The results are the rankings -/

theorem isTotal_sampling_iff {name : Text} {total : ℚ} :
    IsTotal round (programSamples round clock a.sampling name) total ↔
      ∃ order : List Int32, order.Perm (a.members name) ∧
        total = accumulate round (order.map (a.usage round clock)) := by
  have husages (order : List Int32) :
      (order.map (a.sample round clock)).map ProcessSample.cpuPercent =
        order.map (a.usage round clock) := by
    rw [List.map_map]
    rfl
  constructor
  · intro h
    obtain ⟨order, horder, rfl⟩ := h.of_perm (programSamples_perm name)
    obtain ⟨pids, rfl, hpids⟩ : ∃ pids : List Int32,
        order = pids.map (a.sample round clock) ∧ pids.Perm (a.members name) := by
      have hcomp := congrFun₂ (List.eq_map_comp_perm (a.sample round clock)) order
        (a.members name)
      exact hcomp.mpr horder
    exact ⟨pids, hpids, congrArg (accumulate round) (husages pids)⟩
  · rintro ⟨order, horder, rfl⟩
    exact ⟨order.map (a.sample round clock),
      (horder.map _).trans (programSamples_perm name).symm,
      congrArg (accumulate round) (husages order).symm⟩

theorem isRanking_processes_iff {name : Text} {xs : List ProcessSample} :
    IsRanking ProcessSample.cpuPercent (programSamples round clock a.sampling name) xs ↔
      ∃ pids, IsRanking (a.usage round clock) (a.members name) pids ∧
        pids.map (a.sample round clock) = xs := by
  have hmap : IsRanking ProcessSample.cpuPercent (programSamples round clock a.sampling name) xs ↔
      IsRanking ProcessSample.cpuPercent ((a.members name).map (a.sample round clock)) xs :=
    ⟨fun h ↦ h.of_perm (programSamples_perm name),
      fun h ↦ h.of_perm (programSamples_perm name).symm⟩
  rw [hmap, isRanking_map_iff]
  rfl

theorem isOutcome_map_program {total : Text → ℚ} {xs : List Text} {pids : Text → List Int32}
    (htotal : total ∈ a.totals round clock) (hxs : IsRanking total a.names xs)
    (hpids : ∀ name ∈ xs, IsRanking (a.usage round clock) (a.members name) (pids name)) :
    IsOutcome round clock a.sampling (xs.map (a.program round clock total pids)) where
  names := by
    have hnames : (xs.map (a.program round clock total pids)).map ProgramGroup.name = xs := by
      simp [Function.comp_def, program]
    rw [hnames]
    exact hxs.perm.trans programNames_perm.symm
  total := by
    simp only [List.forall_mem_map]
    exact fun name hname ↦ isTotal_sampling_iff.mpr (htotal name (hxs.perm.mem_iff.mp hname))
  processes := by
    simp only [List.forall_mem_map]
    exact fun name hname ↦ isRanking_processes_iff.mpr ⟨pids name, hpids name hname, rfl⟩
  sorted := List.pairwise_map.mpr hxs.sorted

/-- The result of an invocation is any ranking of the names by one of the totals,
and within each program any ranking of its pids. -/
theorem collects_iff_rankings {programs : List ProgramGroup} :
    Collects round clock a.sampling programs ↔ ∃ total ∈ a.totals round clock, ∃ xs pids,
      IsRanking total a.names xs ∧
        (∀ name ∈ xs, IsRanking (a.usage round clock) (a.members name) (pids name)) ∧
        programs = xs.map (a.program round clock total pids) := by
  rw [collects_iff]
  constructor
  · intro h
    -- the only program with a name has its total and its pids
    have hfind : ∀ name ∈ programs.map ProgramGroup.name, ∃ program ∈ programs,
        program.name = name ∧ ∃ pids, IsRanking (a.usage round clock) (a.members name) pids ∧
          pids.map (a.sample round clock) = program.processes := by
      rintro _ hname
      obtain ⟨program, hprogram, rfl⟩ := List.mem_map.mp hname
      exact ⟨program, hprogram, rfl,
        isRanking_processes_iff.mp (h.processes program hprogram)⟩
    have : Nonempty ProgramGroup := ⟨⟨[], 0, []⟩⟩
    choose! found hfound hname pids hpids hprocesses using hfind
    have heq : ∀ program ∈ programs, found program.name = program := fun program hprogram ↦
      List.inj_on_of_nodup_map h.nodup_names (hfound _ (List.mem_map_of_mem hprogram)) hprogram
        (hname _ (List.mem_map_of_mem hprogram))
    have hperm : (programs.map ProgramGroup.name).Perm a.names :=
      h.names.trans programNames_perm
    refine ⟨fun name ↦ (found name).totalCpuPercent, fun name hmem ↦ ?_,
      programs.map ProgramGroup.name, pids, ⟨hperm, ?_⟩, hpids, ?_⟩
    · have hmem' := hperm.mem_iff.mpr hmem
      have htotal := h.total _ (hfound name hmem')
      rw [hname name hmem'] at htotal
      exact isTotal_sampling_iff.mp htotal
    · rw [List.pairwise_map]
      refine h.sorted.imp_of_mem fun {x y} hx hy hle ↦ ?_
      rwa [heq x hx, heq y hy]
    · rw [List.map_map]
      refine (List.map_id programs).symm.trans (List.map_congr_left fun group hgroup ↦ ?_)
      have hprocess := hprocesses _ (List.mem_map_of_mem (f := ProgramGroup.name) hgroup)
      simp only [Function.comp, program, id_eq, hprocess, heq group hgroup]
  · rintro ⟨total, htotal, xs, pids, hxs, hpids, rfl⟩
    exact isOutcome_map_program htotal hxs hpids

end Invocation
end BetterCpu.ProcessManager
