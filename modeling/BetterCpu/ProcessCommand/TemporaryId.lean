import BetterCpu.ProcessCommand
import BetterCpu.ProcessManager.LiveProcesses

/-!
# The temporary ids

A listing and a kill sample the live processes on their own, so an id of the
listing means the same to the kill only if the tick counters rank what is shown
in the same way both times, without ties, and in whatever order the usages of a
program are added.
-/

namespace BetterCpu.ProcessCommand

open Ranking ProcessManager

def Kills (kill : Int32 → Bool) (programs : List ProgramGroup) (idToken : Text)
    (pids : List Int32) : Prop :=
  ∃ outcome, runProcessKillCommand true kill programs idToken = .ok outcome ∧
    outcome.signalled.Perm pids

/-- Every id that the listing shows kills what it shows under this id. -/
structure Identifies (kill : Int32 → Bool) (range : Option ProcessListingRange)
    (listed killed : List ProgramGroup) : Prop where
  program : ∀ row ∈ displayedPrograms range listed,
    Kills kill killed (programToken row.2) (row.1.processes.map ProcessSample.pid)
  process : ∀ row ∈ displayedPrograms range listed, ∀ (m : ℕ) (process : ProcessSample),
    row.1.processes[m]? = some process → Kills kill killed (processToken row.2 m) [process.pid]

variable {live : LiveProcesses}

/-- The program has the same rank in both invocations, in whatever order the
usages are added, and so has each of its processes. -/
structure KeepsRank (round : Arithmetic) (clock : Clock) (first second : Invocation live)
    (name : Text) : Prop where
  program : ∀ total ∈ first.totals round clock, ∀ total' ∈ second.totals round clock,
    SameRank total total' first.names second.names name
  members : (first.members name).Perm (second.members name)
  process : ∀ pid ∈ first.members name,
    SameRank (first.usage round clock) (second.usage round clock) (first.members name)
      (second.members name) pid

def KeepsRanks (round : Arithmetic) (clock : Clock) (range : Option ProcessListingRange)
    (first second : Invocation live) : Prop :=
  ∀ n, InRange range n → ∀ name ∈ first.names,
    (∃ total ∈ first.totals round clock, MayBeAt total first.names name n) →
      KeepsRank round clock first second name

/-- Whatever rankings the two invocations find, the program at the index is the
same in both, with its processes in the same order. -/
def RankingsAgree (round : Arithmetic) (clock : Clock) (first second : Invocation live)
    (n : ℕ) : Prop :=
  ∀ total ∈ first.totals round clock, ∀ total' ∈ second.totals round clock,
    ∀ (xs ys : List Text) (pids qids : Text → List Int32),
      IsRanking total first.names xs → IsRanking total' second.names ys →
      (∀ name ∈ xs, IsRanking (first.usage round clock) (first.members name) (pids name)) →
      (∀ name ∈ ys, IsRanking (second.usage round clock) (second.members name) (qids name)) →
      ∀ name, xs[n]? = some name → ys[n]? = some name ∧ (qids name).Perm (pids name) ∧
        ∀ (m : ℕ) (pid : Int32), (pids name)[m]? = some pid → (qids name)[m]? = some pid

/-! ## The indices fit into a word -/

theorem length_lt_of_nodup {pids : List Int32} (h : pids.Nodup) : pids.length < 2 ^ 64 := by
  have hinj : Function.Injective fun pid : Int32 ↦ pid.toBitVec.toFin := fun x y hxy ↦
    Int32.toBitVec_inj.mp (BitVec.toFin_inj.mp hxy)
  have hle := (h.map hinj).length_le_card
  rw [List.length_map, Fintype.card_fin] at hle
  omega

theorem length_names_lt (a : Invocation live) : a.names.length < 2 ^ 64 := by
  have hle : a.names.length ≤ a.counted.length := by
    simpa [Invocation.names] using (List.dedup_sublist (a.counted.map live.name)).length_le
  exact hle.trans_lt (length_lt_of_nodup Invocation.nodup_counted)

/-! ## The targets of an id -/

variable {first second : Invocation live} {round : Arithmetic} {clock : Clock}
  {total total' : Text → ℚ} {xs ys : List Text} {pids qids : Text → List Int32}
  {kill : Int32 → Bool} {range : Option ProcessListingRange} {n m : ℕ} {name : Text}

theorem map_pid_program (a : Invocation live) (name : Text) :
    ((a.program round clock total pids name).processes.map ProcessSample.pid) = pids name := by
  simp [Invocation.program, Invocation.sample, Function.comp_def]

theorem programTargets_map (a : Invocation live) :
    programTargets (xs.map (a.program round clock total pids)) n = (xs[n]?.elim [] pids) := by
  unfold programTargets
  rw [List.getElem?_map]
  cases xs[n]? with
  | none => rfl
  | some name => exact map_pid_program a name

theorem processTargets_map (a : Invocation live) (hn : xs[n]? = some name) :
    processTargets (xs.map (a.program round clock total pids)) n m = (pids name)[m]?.toList := by
  unfold processTargets
  simp only [List.getElem?_map, hn, Option.map_some, Option.bind_some, Invocation.program]
  cases (pids name)[m]? <;> rfl

theorem kills_programToken_iff {programs : List ProgramGroup} {targets : List Int32}
    (hn : n < 2 ^ 64) : Kills kill programs (programToken n) targets ↔
      (programTargets programs n).Perm targets := by
  obtain ⟨outcome, hrun, hsignalled⟩ := runProcessKillCommand_programToken kill programs hn
  simp [Kills, hrun, hsignalled]

theorem kills_processToken_iff {programs : List ProgramGroup} {targets : List Int32}
    (hn : n < 2 ^ 64) (hm : m < 2 ^ 64) : Kills kill programs (processToken n m) targets ↔
      (processTargets programs n m).Perm targets := by
  obtain ⟨outcome, hrun, hsignalled⟩ := runProcessKillCommand_processToken kill programs hn hm
  simp [Kills, hrun, hsignalled]

theorem exists_mem_members {a : Invocation live} (h : name ∈ a.names) :
    ∃ pid, pid ∈ a.members name := by
  obtain ⟨pid, hpid, hname⟩ := Invocation.mem_names.mp h
  exact ⟨pid, Invocation.mem_members.mpr ⟨hpid, hname⟩⟩

theorem name_eq_of_mem_members {other : Text} {pid : Int32} (h : pid ∈ first.members name)
    (hother : pid ∈ second.members other) : other = name := by
  rw [← (Invocation.mem_members.mp h).2, (Invocation.mem_members.mp hother).2]

/-! ## One row of the listing -/

theorem identifies_map_program_iff {killed : List ProgramGroup} :
    Identifies kill range (xs.map (first.program round clock total pids)) killed ↔
      ∀ n, InRange range n → ∀ name, xs[n]? = some name →
        Kills kill killed (programToken n) (pids name) ∧
          ∀ (m : ℕ) (pid : Int32), (pids name)[m]? = some pid →
            Kills kill killed (processToken n m) [pid] := by
  have hrow (program : ProgramGroup) (n : ℕ) :
      (program, n) ∈ displayedPrograms range (xs.map (first.program round clock total pids)) ↔
        (∃ name, xs[n]? = some name ∧ first.program round clock total pids name = program) ∧
          InRange range n := by
    rw [mem_displayedPrograms, List.getElem?_map, Option.map_eq_some_iff]
  constructor
  · intro h n hrange name hn
    have hmem := (hrow _ n).mpr ⟨⟨name, hn, rfl⟩, hrange⟩
    refine ⟨?_, fun m pid hm ↦ ?_⟩
    · simpa [map_pid_program] using h.program _ hmem
    · apply h.process _ hmem m (first.sample round clock pid)
      simp [Invocation.program, hm]
  · intro h
    constructor
    · rintro ⟨program, n⟩ hmem
      obtain ⟨⟨name, hn, rfl⟩, hrange⟩ := (hrow program n).mp hmem
      rw [map_pid_program]
      exact (h n hrange name hn).1
    · rintro ⟨program, n⟩ hmem m process hprocess
      obtain ⟨⟨name, hn, rfl⟩, hrange⟩ := (hrow program n).mp hmem
      simp only [Invocation.program, List.getElem?_map, Option.map_eq_some_iff] at hprocess
      obtain ⟨pid, hm, rfl⟩ := hprocess
      exact (h n hrange name hn).2 m pid hm

/-- The ids of a program signal it and its processes exactly if it stands at the
same index in the second result, with its processes in the same order. -/
theorem kills_row_iff (hxs : IsRanking total first.names xs)
    (hpids : IsRanking (first.usage round clock) (first.members name) (pids name))
    (hqids : ∀ other ∈ ys,
      IsRanking (second.usage round clock) (second.members other) (qids other))
    (hn : xs[n]? = some name) :
    (Kills kill (ys.map (second.program round clock total' qids)) (programToken n) (pids name) ∧
        ∀ (m : ℕ) (pid : Int32), (pids name)[m]? = some pid →
          Kills kill (ys.map (second.program round clock total' qids)) (processToken n m) [pid]) ↔
      ys[n]? = some name ∧ (qids name).Perm (pids name) ∧
        ∀ (m : ℕ) (pid : Int32), (pids name)[m]? = some pid → (qids name)[m]? = some pid := by
  have hindex : n < 2 ^ 64 := by
    obtain ⟨hlength, -⟩ := List.getElem?_eq_some_iff.mp hn
    rw [hxs.perm.length_eq] at hlength
    exact hlength.trans (length_names_lt first)
  have hprocessIndex {m : ℕ} {pid : Int32} (hm : (pids name)[m]? = some pid) : m < 2 ^ 64 := by
    obtain ⟨hlength, -⟩ := List.getElem?_eq_some_iff.mp hm
    exact hlength.trans (length_lt_of_nodup
      (hpids.perm.nodup_iff.mpr (Invocation.nodup_members name)))
  rw [kills_programToken_iff hindex, programTargets_map]
  constructor
  · rintro ⟨hprogram, hprocess⟩
    -- some process is signalled, and it has the name of what is at this index
    have hsome : ys[n]? = some name := by
      obtain ⟨pid, hpid⟩ :=
        exists_mem_members (hxs.perm.mem_iff.mp (List.mem_of_getElem? hn))
      have htarget := hprogram.mem_iff.mpr (hpids.perm.mem_iff.mpr hpid)
      cases hother : ys[n]? with
      | none => simp [hother] at htarget
      | some other =>
          rw [hother] at htarget
          have hranking := hqids other (List.mem_of_getElem? hother)
          rw [name_eq_of_mem_members hpid (hranking.perm.mem_iff.mp htarget)]
    rw [hsome] at hprogram
    refine ⟨hsome, hprogram, fun m pid hm ↦ ?_⟩
    have htargets := hprocess m pid hm
    rw [kills_processToken_iff hindex (hprocessIndex hm), processTargets_map second hsome]
      at htargets
    simpa using htargets
  · rintro ⟨hsome, hperm, hpid⟩
    refine ⟨by rwa [hsome], fun m pid hm ↦ ?_⟩
    rw [kills_processToken_iff hindex (hprocessIndex hm), processTargets_map second hsome,
      hpid m pid hm]
    exact List.Perm.refl _

theorem identifies_iff_rankingsAgree :
    (∀ listed killed, Collects round clock first.sampling listed →
        Collects round clock second.sampling killed → Identifies kill range listed killed) ↔
      ∀ n, InRange range n → RankingsAgree round clock first second n := by
  constructor
  · intro h n hrange total htotal total' htotal' xs ys pids qids hxs hys hpids hqids name hn
    have hlisted : Collects round clock first.sampling
        (xs.map (first.program round clock total pids)) :=
      Invocation.collects_iff_rankings.mpr ⟨total, htotal, xs, pids, hxs, hpids, rfl⟩
    have hkilled : Collects round clock second.sampling
        (ys.map (second.program round clock total' qids)) :=
      Invocation.collects_iff_rankings.mpr ⟨total', htotal', ys, qids, hys, hqids, rfl⟩
    apply (kills_row_iff hxs (hpids name (List.mem_of_getElem? hn)) hqids hn).mp
    exact identifies_map_program_iff.mp (h _ _ hlisted hkilled) n hrange name hn
  · intro h listed killed hlisted hkilled
    obtain ⟨total, htotal, xs, pids, hxs, hpids, rfl⟩ :=
      Invocation.collects_iff_rankings.mp hlisted
    obtain ⟨total', htotal', ys, qids, hys, hqids, rfl⟩ :=
      Invocation.collects_iff_rankings.mp hkilled
    apply identifies_map_program_iff.mpr
    intro n hrange name hn
    apply (kills_row_iff hxs (hpids name (List.mem_of_getElem? hn)) hqids hn).mpr
    exact h n hrange total htotal total' htotal' xs ys pids qids hxs hys hpids hqids name hn

/-! ## When the rankings agree -/

theorem keepsRank_of_rankingsAgree (h : RankingsAgree round clock first second n)
    (hname : name ∈ first.names)
    (hmay : ∃ total ∈ first.totals round clock, MayBeAt total first.names name n) :
    KeepsRank round clock first second name := by
  choose pids hpids using fun name ↦
    exists_isRanking (first.usage round clock) (first.members name)
  choose qids hqids using fun name ↦
    exists_isRanking (second.usage round clock) (second.members name)
  obtain ⟨total, htotal, hat⟩ := hmay
  obtain ⟨total', htotal'⟩ := second.totals_nonempty round clock
  obtain ⟨xs, hxs, hn⟩ := exists_isRanking_getElem? Invocation.nodup_names hname hat
  obtain ⟨ys, hys⟩ := exists_isRanking total' second.names
  constructor
  · apply (agree_among_iff Invocation.nodup_names Invocation.nodup_names
      (second.totals_nonempty round clock)).mp _ name hname ⟨total, htotal, hat⟩
    intro total htotal total' htotal' xs ys hxs hys other hother
    exact (h total htotal total' htotal' xs ys pids qids hxs hys (fun name _ ↦ hpids name)
      (fun name _ ↦ hqids name) other hother).1
  · obtain ⟨-, hperm, -⟩ := h total htotal total' htotal' xs ys pids qids hxs hys
      (fun name _ ↦ hpids name) (fun name _ ↦ hqids name) name hn
    exact (hpids name).perm.symm.trans (hperm.symm.trans (hqids name).perm)
  · intro pid hpid
    obtain ⟨m, hm⟩ := exists_mayBeAt (first.usage round clock) hpid
    apply (agree_iff (Invocation.nodup_members name) (Invocation.nodup_members name)).mp _
      pid hpid hm
    intro ps qs hps hqs other hother
    -- the pids of this program may be ranked in any way, those of the others stay
    have hpids' := (Function.forall_update_iff pids fun other pids ↦
      IsRanking (first.usage round clock) (first.members other) pids).mpr
        ⟨hps, fun other _ ↦ hpids other⟩
    have hqids' := (Function.forall_update_iff qids fun other qids ↦
      IsRanking (second.usage round clock) (second.members other) qids).mpr
        ⟨hqs, fun other _ ↦ hqids other⟩
    obtain ⟨-, -, hpid'⟩ := h total htotal total' htotal' xs ys _ _ hxs hys
      (fun other _ ↦ hpids' other) (fun other _ ↦ hqids' other) name hn
    rw [Function.update_self, Function.update_self] at hpid'
    exact hpid' m other hother

theorem rankingsAgree_of_keepsRank (h : ∀ name ∈ first.names,
      (∃ total ∈ first.totals round clock, MayBeAt total first.names name n) →
        KeepsRank round clock first second name) :
    RankingsAgree round clock first second n := by
  intro total htotal total' htotal' xs ys pids qids hxs hys hpids hqids name hn
  have hname : name ∈ xs := List.mem_of_getElem? hn
  have hsome : ys[n]? = some name := by
    apply (agree_among_iff Invocation.nodup_names Invocation.nodup_names
      (second.totals_nonempty round clock)).mpr _ total htotal total' htotal' xs ys hxs hys
        name hn
    intro other hother hmay
    exact (h other hother hmay).program
  have hkeeps := h name (hxs.perm.mem_iff.mp hname)
    ⟨total, htotal, (hxs.mayBeAt_iff hn name).mpr rfl⟩
  have hp := hpids name hname
  have hq := hqids name (List.mem_of_getElem? hsome)
  refine ⟨hsome, hq.perm.trans (hkeeps.members.symm.trans hp.perm.symm), fun m pid hm ↦ ?_⟩
  apply (agree_iff (Invocation.nodup_members name) (Invocation.nodup_members name)).mpr _
    _ _ hp hq pid hm
  intro other hother _
  exact hkeeps.process other hother

/-- In any arithmetic, and so in that of `double`s: whatever the orders of
iteration and the sorts are, the ids of the listing identify what it shows
exactly if everything it may show keeps its rank. -/
theorem temporaryId_identifies_iff (round : Arithmetic) (clock : Clock) (kill : Int32 → Bool)
    (range : Option ProcessListingRange) (first second : Invocation live) :
    (∀ listed killed, Collects round clock first.sampling listed →
        Collects round clock second.sampling killed → Identifies kill range listed killed) ↔
      KeepsRanks round clock range first second := by
  rw [identifies_iff_rankingsAgree]
  apply forall₂_congr
  intro n _
  constructor
  · intro h name hname hmay
    exact keepsRank_of_rankingsAgree h hname hmay
  · exact rankingsAgree_of_keepsRank

/-! ## Two programs whose usage changes places -/

def sampleLive : LiveProcesses :=
  ⟨[1, 2], by decide, fun pid ↦ if pid = 1 then ['a'] else ['b']⟩

def sampleClock : Clock :=
  ⟨100, 200, by decide, by decide⟩

def sampleInvocation (busy : Int32) : Invocation sampleLive :=
  ⟨[1, 2], List.Perm.refl _, fun _ ↦ 0, fun pid ↦ if pid = busy then 2 else 1⟩

/-- The listing shows the process 1 under the id 0, and the kill with this id
signals the process 2. -/
theorem not_identifies_after_swap : ¬ ∀ listed killed,
    Collects .double sampleClock (sampleInvocation 1).sampling listed →
      Collects .double sampleClock (sampleInvocation 2).sampling killed →
        Identifies (fun _ ↦ true) none listed killed := by
  intro h
  let pids : Text → List Int32 := fun name ↦ if name = ['a'] then [1] else [2]
  let total (busy : Int32) : Text → ℚ := fun name ↦
    accumulate .double ((pids name).map ((sampleInvocation busy).usage .double sampleClock))
  have htotal (busy : Int32) (hpids : ∀ name ∈ (sampleInvocation busy).names,
        (pids name).Perm ((sampleInvocation busy).members name)) :
      total busy ∈ (sampleInvocation busy).totals .double sampleClock :=
    fun name hname ↦ ⟨pids name, hpids name hname, rfl⟩
  have hlisted : Collects .double sampleClock (sampleInvocation 1).sampling
      ([['a'], ['b']].map ((sampleInvocation 1).program .double sampleClock (total 1) pids)) :=
    Invocation.collects_iff_rankings.mpr
      ⟨total 1, htotal 1 (by decide), [['a'], ['b']], pids, by decide +kernel, by decide +kernel,
        rfl⟩
  have hkilled : Collects .double sampleClock (sampleInvocation 2).sampling
      ([['b'], ['a']].map ((sampleInvocation 2).program .double sampleClock (total 2) pids)) :=
    Invocation.collects_iff_rankings.mpr
      ⟨total 2, htotal 2 (by decide), [['b'], ['a']], pids, by decide +kernel, by decide +kernel,
        rfl⟩
  have hrow : ((sampleInvocation 1).program .double sampleClock (total 1) pids ['a'], 0) ∈
      displayedPrograms none ([['a'], ['b']].map
        ((sampleInvocation 1).program .double sampleClock (total 1) pids)) :=
    mem_displayedPrograms.mpr ⟨rfl, trivial⟩
  have hkills := (kills_programToken_iff (by decide)).mp
    ((h _ _ hlisted hkilled).program _ hrow)
  rw [programTargets_map, map_pid_program] at hkills
  revert hkills
  decide

end BetterCpu.ProcessCommand
