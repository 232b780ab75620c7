import BetterCpu.Library.Separators
import BetterCpu.ProcessCommand.Listing
import BetterCpu.ProcessManager.KernelProcesses

/-!
# Reading the listing

The names of the processes are printed as they are, with blanks, brackets,
colours and lines of the table if they have any.  The listing can still be read
in one way only.
-/

namespace BetterCpu.ProcessCommand

open Text ProcessManager Separators

/-- What a reader finds in the block of a program; the usages are in tenths of a
percent. -/
structure ShownProgram where
  programIndex : ℕ
  name : Text
  total : ℕ
  usages : List ℕ

def shownProgram (row : ProgramGroup × ℕ) : ShownProgram where
  programIndex := row.2
  name := row.1.name
  total := tenths row.1.totalCpuPercent
  usages := row.1.processes.map fun process ↦ tenths process.cpuPercent

/-! ## The lines of a block -/

def programLine (idWidth programWidth : ℕ) (row : ProgramGroup × ℕ) : Text :=
  clrLgreen ++ padRight (idLabel row) idWidth ++ clrReset ++ ' ' :: ' ' ::
    padRight (programLabel row) programWidth ++ ' ' :: ' ' ::
    clrLcyan ++ cpuLabel row ++ clrReset ++ ['\n']

def tableLines (program : ProgramGroup) : List Text :=
  let pidLabels := program.processes.mapIdx fun processIndex _ ↦ 'p' :: decimal processIndex
  let cpuLabels := program.processes.map fun process ↦ formatPercent process.cpuPercent
  let pidWidth := columnWidth pidHeader pidLabels
  let processWidth := columnWidth processHeader (program.processes.map ProcessSample.name)
  let cpuWidth := columnWidth cpuHeader cpuLabels
  [tableBorder kBoxTopLeft kBoxTopMid kBoxTopRight pidWidth processWidth cpuWidth,
    tableRow pidHeader processHeader cpuHeader pidWidth processWidth cpuWidth,
    tableBorder kBoxMidLeft kBoxMidMid kBoxMidRight pidWidth processWidth cpuWidth] ++
    (program.processes.mapIdx fun processIndex process ↦
      tableRow ('p' :: decimal processIndex) process.name (formatPercent process.cpuPercent)
        pidWidth processWidth cpuWidth) ++
    [tableBorder kBoxBottomLeft kBoxBottomMid kBoxBottomRight pidWidth processWidth cpuWidth]

def blockLines (idWidth programWidth : ℕ) (row : ProgramGroup × ℕ) : List Text :=
  programLine idWidth programWidth row :: tableLines row.1 ++ [['\n']]

theorem flatten_tableLines (program : ProgramGroup) :
    (tableLines program).flatten = programProcessTable program := by
  simp [tableLines, programProcessTable]

theorem flatten_blockLines (idWidth programWidth : ℕ) (row : ProgramGroup × ℕ) :
    (blockLines idWidth programWidth row).flatten =
      printProgram idWidth programWidth (idLabel row) (programLabel row) (cpuLabel row) row.1 := by
  simp [blockLines, programLine, printProgram, flatten_tableLines]

def headerLines (idWidth programWidth : ℕ) : List Text :=
  let headerLine := padRight idHeader idWidth ++ ' ' :: ' ' ::
    padRight programHeader programWidth ++ ' ' :: ' ' :: cpuHeader
  [clrBold ++ clrLwhite ++ headerLine ++ clrReset ++ ['\n'],
    clrWhite ++ List.replicate headerLine.length '-' ++ clrReset ++ ['\n']]

def listingLines (range : Option ProcessListingRange) (programs : List ProgramGroup) : List Text :=
  let labels := collectLabels (displayBounds range programs) programs.zipIdx
  headerLines labels.idWidth labels.programWidth ++
    (displayedPrograms range programs).flatMap (blockLines labels.idWidth labels.programWidth)

theorem processListing?_eq_lines (range : Option ProcessListingRange)
    (programs : List ProgramGroup) :
    processListing? range programs = some (listingLines range programs).flatten := by
  rw [processListing?_eq, listingLines]
  simp [headerLines, listingHeader, List.flatMap_def, List.flatten_flatten, flatten_blockLines,
    Function.comp_def]

/-! ## No label breaks its line -/

theorem padRight_eq (text : Text) (width : ℕ) :
    padRight text width = text ++ List.replicate (width - text.length) ' ' := by
  unfold padRight
  split
  · next hle => rw [Nat.sub_eq_zero_of_le hle, List.replicate_zero, List.append_nil]
  · rfl

theorem notMem_padRight {c : Char} {text : Text} (hc : c ≠ ' ') (h : c ∉ text) (width : ℕ) :
    c ∉ padRight text width := by
  simp [padRight_eq, h, hc]

theorem notMem_formatPercent {c : Char} (hdigit : c.isDigit = false) (hdot : c ≠ '.')
    (hpercent : c ≠ '%') (value : ℚ) : c ∉ formatPercent value := by
  simp [formatPercent, notMem_decimal hdigit, hdot, hpercent]

theorem notMem_repeatUtf8 {c : Char} {unit : Text} (h : c ∉ unit) (count : ℕ) :
    c ∉ repeatUtf8 unit count := by
  intro hc
  obtain ⟨other, hother, hc⟩ := List.mem_flatten.mp hc
  rw [List.eq_of_mem_replicate hother] at hc
  exact h hc

/-- What stands around the labels. -/
theorem newline_notMem_parts :
    ('\n' ∉ clrBold ∧ '\n' ∉ clrCyan ∧ '\n' ∉ clrWhite ∧ '\n' ∉ clrLcyan ∧ '\n' ∉ clrLwhite ∧
      '\n' ∉ clrLgreen ∧ '\n' ∉ clrReset) ∧
    '\n' ∉ indent ∧ '\n' ∉ kBoxVertical ∧ '\n' ∉ cellLine ∧ '\n' ∉ cpuHeader := by
  decide

theorem newline_notMem_padRight {text : Text} (h : '\n' ∉ text) (width : ℕ) :
    '\n' ∉ padRight text width :=
  notMem_padRight (by decide) h width

theorem newline_notMem_decimal (n : ℕ) : '\n' ∉ decimal n :=
  notMem_decimal (by decide) n

theorem newline_notMem_formatPercent (value : ℚ) : '\n' ∉ formatPercent value :=
  notMem_formatPercent (by decide) (by decide) (by decide) value

theorem ended_tableBorder {left mid right : Text} (hcorners : '\n' ∉ left ++ mid ++ right)
    (pidWidth processWidth cpuWidth : ℕ) :
    Ended '\n' (tableBorder left mid right pidWidth processWidth cpuWidth) := by
  have hrule := notMem_repeatUtf8 (show '\n' ∉ kBoxHorizontal by decide)
  simp only [List.mem_append, not_or] at hcorners
  refine ⟨_, ?_, rfl⟩
  simp [hcorners, hrule, newline_notMem_parts]

theorem ended_tableRow {pidLabel processLabel cpuLabel : Text} (hpid : '\n' ∉ pidLabel)
    (hprocess : '\n' ∉ processLabel) (hcpu : '\n' ∉ cpuLabel)
    (pidWidth processWidth cpuWidth : ℕ) :
    Ended '\n' (tableRow pidLabel processLabel cpuLabel pidWidth processWidth cpuWidth) := by
  refine ⟨clrCyan ++ indent ++ kBoxVertical ++ clrReset ++
    ' ' :: padRight pidLabel pidWidth ++ ' ' :: cellLine ++
    ' ' :: padRight processLabel processWidth ++ ' ' :: cellLine ++
    ' ' :: padRight cpuLabel cpuWidth ++ ' ' :: cellLine, ?_, by simp [tableRow]⟩
  simp [newline_notMem_padRight hpid, newline_notMem_padRight hprocess,
    newline_notMem_padRight hcpu, newline_notMem_parts]

/-- The processes have the name of their program, which is on one line. -/
structure Uniform (program : ProgramGroup) : Prop where
  newline_notMem : '\n' ∉ program.name
  names : ∀ process ∈ program.processes, process.name = program.name

theorem ended_programLine {row : ProgramGroup × ℕ} (h : Uniform row.1)
    (idWidth programWidth : ℕ) : Ended '\n' (programLine idWidth programWidth row) := by
  have hid : '\n' ∉ idLabel row := by
    simp [idLabel, programToken, newline_notMem_decimal]
  have hprogram : '\n' ∉ programLabel row := by
    simp [programLabel, newline_notMem_decimal, h.newline_notMem]
  have hcpu : '\n' ∉ cpuLabel row := newline_notMem_formatPercent _
  refine ⟨clrLgreen ++ padRight (idLabel row) idWidth ++ clrReset ++ ' ' :: ' ' ::
    padRight (programLabel row) programWidth ++ ' ' :: ' ' :: clrLcyan ++ cpuLabel row ++
      clrReset, ?_, by simp [programLine]⟩
  simp [newline_notMem_padRight hid, newline_notMem_padRight hprogram, hcpu,
    newline_notMem_parts]

theorem ended_tableLines {program : ProgramGroup} (h : Uniform program) :
    ∀ line ∈ tableLines program, Ended '\n' line := by
  intro line hline
  simp only [tableLines, List.mem_append, List.mem_cons, List.not_mem_nil, or_false] at hline
  rcases hline with ((rfl | rfl | rfl) | hrow) | rfl
  · exact ended_tableBorder (by decide) _ _ _
  · exact ended_tableRow (by decide) (by decide) (by decide) _ _ _
  · exact ended_tableBorder (by decide) _ _ _
  · obtain ⟨processIndex, hindex, rfl⟩ := List.mem_mapIdx.mp hrow
    have hname : '\n' ∉ program.processes[processIndex].name := by
      rw [h.names _ (List.getElem_mem hindex)]
      exact h.newline_notMem
    apply ended_tableRow (by simp [newline_notMem_decimal]) hname
    apply newline_notMem_formatPercent
  · exact ended_tableBorder (by decide) _ _ _

theorem ended_blockLines {row : ProgramGroup × ℕ} (h : Uniform row.1)
    (idWidth programWidth : ℕ) :
    ∀ line ∈ blockLines idWidth programWidth row, Ended '\n' line := by
  intro line hline
  simp only [blockLines, List.mem_append, List.mem_cons, List.not_mem_nil, or_false] at hline
  rcases hline with (rfl | hline) | rfl
  · exact ended_programLine h idWidth programWidth
  · exact ended_tableLines h line hline
  · exact ⟨[], List.not_mem_nil, rfl⟩

theorem ended_headerLines (idWidth programWidth : ℕ) :
    ∀ line ∈ headerLines idWidth programWidth, Ended '\n' line := by
  have hid := newline_notMem_padRight (show '\n' ∉ idHeader by decide) idWidth
  have hprogram := newline_notMem_padRight (show '\n' ∉ programHeader by decide) programWidth
  intro line hline
  simp only [headerLines, List.mem_cons, List.not_mem_nil, or_false] at hline
  rcases hline with rfl | rfl
  · refine ⟨clrBold ++ clrLwhite ++ (padRight idHeader idWidth ++ ' ' :: ' ' ::
      padRight programHeader programWidth ++ ' ' :: ' ' :: cpuHeader) ++ clrReset, ?_, rfl⟩
    simp [hid, hprogram, newline_notMem_parts]
  · refine ⟨_, ?_, rfl⟩
    simp [newline_notMem_parts]

/-! ## A line is read in one way -/

theorem decimal_injective : Function.Injective decimal :=
  Function.LeftInverse.injective ofDigits_decimal

theorem tenths_eq_of_formatPercent {value value' : ℚ}
    (h : formatPercent value = formatPercent value') : tenths value = tenths value' := by
  have hdot : '.'.isDigit = false := by decide
  simp only [formatPercent, List.append_assoc, List.cons_append] at h
  obtain ⟨hquotient, hremainder⟩ := first_inj (notMem_decimal hdot _) (notMem_decimal hdot _) h
  have hquotient := decimal_injective hquotient
  have hremainder := decimal_injective (List.append_cancel_right hremainder)
  omega

/-- A label is read up to the last character that is no blank. -/
theorem padRight_concat_inj {label label' : Text} {c : Char} (hc : c ≠ ' ') {width width' : ℕ}
    (h : padRight (label ++ [c]) width = padRight (label' ++ [c]) width') : label = label' := by
  have hblanks (n : ℕ) : c ∉ List.replicate n ' ' := fun hmem ↦ hc (List.eq_of_mem_replicate hmem)
  simp only [padRight_eq, List.append_assoc, List.singleton_append] at h
  exact (last_inj (hblanks _) (hblanks _) h).1

variable {row row' : ProgramGroup × ℕ} {idWidth programWidth idWidth' programWidth' : ℕ}

theorem idLabel_inj
    (h : padRight (idLabel row) idWidth = padRight (idLabel row') idWidth') : row.2 = row'.2 := by
  have hindex : '[' :: decimal row.2 = '[' :: decimal row'.2 :=
    padRight_concat_inj (c := ']') (by decide) h
  exact decimal_injective (List.tail_eq_of_cons_eq hindex)

theorem programLabel_inj
    (h : padRight (programLabel row) programWidth = padRight (programLabel row') programWidth') :
    row.1.name = row'.1.name ∧ row.1.processes.length = row'.1.processes.length := by
  have hlabel (row : ProgramGroup × ℕ) : programLabel row =
      (row.1.name ++ [' ']) ++ '(' :: decimal row.1.processes.length ++ [')'] := by
    simp [programLabel]
  have hnotMem (n : ℕ) : '(' ∉ decimal n := notMem_decimal (by decide) n
  rw [hlabel, hlabel] at h
  obtain ⟨hname, hlength⟩ :=
    last_inj (hnotMem _) (hnotMem _) (padRight_concat_inj (c := ')') (by decide) h)
  exact ⟨List.append_cancel_right hname, decimal_injective hlength⟩

/-- The name of the program may have any characters: the usage stands behind the
last colour but one, and the id in front of the second one. -/
theorem programLine_inj
    (h : programLine idWidth programWidth row = programLine idWidth' programWidth' row') :
    row.2 = row'.2 ∧ row.1.name = row'.1.name ∧
      row.1.processes.length = row'.1.processes.length ∧
        tenths row.1.totalCpuPercent = tenths row'.1.totalCpuPercent := by
  have hid (row : ProgramGroup × ℕ) (width : ℕ) : '\x1b' ∉ padRight (idLabel row) width := by
    apply notMem_padRight (by decide)
    simp [idLabel, programToken, notMem_decimal (c := '\x1b') (by decide)]
  have hcpu (row : ProgramGroup × ℕ) : 'm' ∉ cpuLabel row :=
    notMem_formatPercent (by decide) (by decide) (by decide) _
  have hline (row : ProgramGroup × ℕ) (idWidth programWidth : ℕ) :
      programLine idWidth programWidth row =
        (clrLgreen ++ (padRight (idLabel row) idWidth ++ '\x1b' :: ("[0m  ".toList ++
          padRight (programLabel row) programWidth) ++ "  \x1b[96".toList)) ++
            'm' :: cpuLabel row ++ (clrReset ++ ['\n']) := by
    simp [programLine, clrReset, clrLcyan]
  rw [hline, hline] at h
  obtain ⟨hfront, htotal⟩ := last_inj (hcpu row) (hcpu row') (List.append_cancel_right h)
  have hlabels := List.append_cancel_right (List.append_cancel_left hfront)
  obtain ⟨hids, hprograms⟩ := first_inj (hid row idWidth) (hid row' idWidth') hlabels
  obtain ⟨hname, hlength⟩ := programLabel_inj (List.append_cancel_left hprograms)
  exact ⟨idLabel_inj hids, hname, hlength, tenths_eq_of_formatPercent htotal⟩

/-- The usage stands in the last cell of its row, whatever the name is. -/
theorem tableRow_inj {pidLabel processLabel pidLabel' processLabel' : Text} {value value' : ℚ}
    {pidWidth processWidth cpuWidth pidWidth' processWidth' cpuWidth' : ℕ}
    (h : tableRow pidLabel processLabel (formatPercent value) pidWidth processWidth cpuWidth =
      tableRow pidLabel' processLabel' (formatPercent value') pidWidth' processWidth' cpuWidth') :
    tenths value = tenths value' := by
  have hrow (pidLabel processLabel : Text) (value : ℚ) (pidWidth processWidth cpuWidth : ℕ) :
      tableRow pidLabel processLabel (formatPercent value) pidWidth processWidth cpuWidth =
        (clrCyan ++ indent ++ kBoxVertical ++ clrReset ++ ' ' :: padRight pidLabel pidWidth ++
          ' ' :: cellLine ++ ' ' :: padRight processLabel processWidth ++ ' ' :: cellLine) ++
            ' ' :: (decimal (tenths value / 10) ++ '.' :: decimal (tenths value % 10)) ++
              '%' :: List.replicate (cpuWidth - (formatPercent value).length) ' ' ++
                (' ' :: cellLine ++ ['\n']) := by
    simp [tableRow, padRight_eq, formatPercent]
  have hblanks (n : ℕ) : '%' ∉ List.replicate n ' ' := by simp
  have hnotMem (value : ℚ) :
      ' ' ∉ decimal (tenths value / 10) ++ '.' :: decimal (tenths value % 10) := by
    simp [notMem_decimal (c := ' ') (by decide)]
  rw [hrow, hrow] at h
  obtain ⟨hcells, -⟩ := last_inj (hblanks _) (hblanks _) (List.append_cancel_right h)
  obtain ⟨-, hvalue⟩ := last_inj (hnotMem value) (hnotMem value') hcells
  exact tenths_eq_of_formatPercent (congrArg (· ++ ['%']) hvalue)

theorem length_tableLines (program : ProgramGroup) :
    (tableLines program).length = program.processes.length + 4 := by
  simp [tableLines]

theorem tableLines_inj {program program' : ProgramGroup}
    (h : tableLines program = tableLines program') :
    (program.processes.map fun process ↦ tenths process.cpuPercent) =
      program'.processes.map fun process ↦ tenths process.cpuPercent := by
  have hlength : program.processes.length = program'.processes.length := by
    have hlines := congrArg List.length h
    simpa only [length_tableLines, Nat.add_right_cancel_iff] using hlines
  simp only [tableLines] at h
  have hrows := (List.append_inj (List.append_inj' h rfl).1 rfl).2
  apply List.ext_getElem
  · simpa using hlength
  · intro processIndex hindex hindex'
    rw [List.length_map] at hindex hindex'
    have hrow := congrArg (fun rows ↦ rows[processIndex]?) hrows
    simp only [List.getElem?_mapIdx, List.getElem?_eq_getElem hindex,
      List.getElem?_eq_getElem hindex', Option.map_some, Option.some.injEq] at hrow
    rw [List.getElem_map, List.getElem_map]
    exact tableRow_inj hrow

theorem flatMap_blockLines_inj {rows rows' : List (ProgramGroup × ℕ)}
    (h : rows.flatMap (blockLines idWidth programWidth) =
      rows'.flatMap (blockLines idWidth' programWidth')) :
    rows.map shownProgram = rows'.map shownProgram := by
  induction rows generalizing rows' with
  | nil =>
      cases rows' with
      | nil => rfl
      | cons row' rows' => simp [blockLines] at h
  | cons row rows ih =>
      cases rows' with
      | nil => simp [blockLines] at h
      | cons row' rows' =>
          simp only [List.flatMap_cons, blockLines, List.cons_append, List.append_assoc,
            List.cons_eq_cons] at h
          obtain ⟨hprogram, hrest⟩ := h
          obtain ⟨hindex, hname, hlength, htotal⟩ := programLine_inj hprogram
          -- the first line says how many lines there are to the end of the block
          have hlines : (tableLines row.1).length = (tableLines row'.1).length := by
            rw [length_tableLines, length_tableLines, hlength]
          obtain ⟨htable, hrest⟩ := List.append_inj hrest hlines
          have hshown : shownProgram row = shownProgram row' := by
            simp only [shownProgram, hindex, hname, htotal, tableLines_inj htable]
          rw [List.map_cons, List.map_cons, hshown, ih (List.tail_eq_of_cons_eq hrest)]

/-! ## What is shown makes the listing -/

theorem formatPercent_congr {value value' : ℚ} (h : tenths value = tenths value') :
    formatPercent value = formatPercent value' := by
  rw [formatPercent, formatPercent, h]

theorem tableLines_congr {program program' : ProgramGroup} (h : Uniform program)
    (h' : Uniform program') (hname : program.name = program'.name)
    (husages : (program.processes.map fun process ↦ tenths process.cpuPercent) =
      program'.processes.map fun process ↦ tenths process.cpuPercent) :
    tableLines program = tableLines program' := by
  have hsame : ∀ process ∈ program.processes, ∀ process' ∈ program'.processes,
      process.name = process'.name := by
    intro process hprocess process' hprocess'
    rw [h.names process hprocess, hname, h'.names process' hprocess']
  have hpids : (program.processes.mapIdx fun processIndex _ ↦ 'p' :: decimal processIndex) =
      program'.processes.mapIdx fun processIndex _ ↦ 'p' :: decimal processIndex :=
    mapIdx_eq_mapIdx (fun _ _ _ _ _ _ ↦ rfl) husages
  have hnames : program.processes.map ProcessSample.name =
      program'.processes.map ProcessSample.name :=
    map_eq_map (fun x hx y hy _ ↦ hsame x hx y hy) husages
  have hcpus : (program.processes.map fun process ↦ formatPercent process.cpuPercent) =
      program'.processes.map fun process ↦ formatPercent process.cpuPercent :=
    map_eq_map (fun _ _ _ _ ↦ formatPercent_congr) husages
  simp only [tableLines, hpids, hnames, hcpus]
  congr 2
  refine mapIdx_eq_mapIdx (fun _ x hx y hy hxy ↦ ?_) husages
  rw [hsame x hx y hy, formatPercent_congr hxy]

theorem programLabel_congr (hshown : shownProgram row = shownProgram row') :
    programLabel row = programLabel row' := by
  obtain ⟨-, hname, -, husages⟩ := ShownProgram.mk.inj hshown
  have hlength : row.1.processes.length = row'.1.processes.length := by
    simpa using congrArg List.length husages
  rw [programLabel, programLabel, hname, hlength]

theorem blockLines_congr (h : Uniform row.1) (h' : Uniform row'.1)
    (hshown : shownProgram row = shownProgram row') :
    blockLines idWidth programWidth row = blockLines idWidth programWidth row' := by
  obtain ⟨hindex, hname, htotal, husages⟩ := ShownProgram.mk.inj hshown
  rw [blockLines, blockLines, programLine, programLine, idLabel, idLabel, hindex,
    programLabel_congr hshown, cpuLabel, cpuLabel, formatPercent_congr htotal,
    tableLines_congr h h' hname husages]

/-! ## The programs that are collected -/

theorem newline_notMem_firstLine (content : Text) : '\n' ∉ firstLine content := by
  intro h
  simpa using List.mem_takeWhile_imp h

theorem mem_of_mem_name {line : Text} {times : ProcessTimes}
    (h : parseStatLine line = .ok (some times)) {c : Char} (hc : c ∈ times.name) : c ∈ line := by
  unfold parseStatLine at h
  split at h
  · next nameStart nameEnd _ _ =>
      split at h
      · cases h
      · simp only [bind, Except.bind] at h
        split at h
        · cases h
        · split at h
          · cases h
          · cases h
            exact List.mem_of_mem_drop (List.mem_of_mem_take hc)
  · cases h

theorem newline_notMem_name {stat : Option Text} {times : ProcessTimes}
    (h : readProcessTimes stat = .ok (some times)) : '\n' ∉ times.name := by
  cases stat with
  | none => cases h
  | some content => exact fun hc ↦ newline_notMem_firstLine content (mem_of_mem_name h hc)

variable {round : Arithmetic} {clock clock' : Clock} {files files' : ProcFiles}
variable {programs programs' : List ProgramGroup}

theorem uniform_of_collects (h : files.Collects round clock programs) :
    ∀ program ∈ programs, Uniform program := by
  obtain ⟨pids, -, s, hreads, hcollects⟩ := h
  have hgrouped := (isOutcome_of_collects hcollects).grouped
  intro program hprogram
  constructor
  · obtain ⟨process, processes, hprocesses⟩ :=
      List.exists_cons_of_ne_nil (hgrouped.nonempty program hprogram)
    obtain ⟨first, second, hcounted, hname, -⟩ := hgrouped.counted program hprogram process
      (by simp [hprocesses])
    have hlisted : process.pid ∈ s.pids := hcounted.listed
    rw [hreads.pids] at hlisted
    have hvalid : s.firstTimes process.pid ≠ none := by
      rw [hcounted.firstTimes]
      exact Option.some_ne_none first
    have hread := hreads.secondTimes process.pid hlisted hvalid
    rw [hcounted.secondTimes] at hread
    exact hname ▸ newline_notMem_name hread
  · intro process hprocess
    obtain ⟨first, second, -, hname, hsample⟩ :=
      hgrouped.counted program hprogram process hprocess
    exact hsample.trans hname

variable {range range' : Option ProcessListingRange}

theorem uniform_of_displayed (h : ∀ program ∈ programs, Uniform program)
    {row : ProgramGroup × ℕ} (hrow : row ∈ displayedPrograms range programs) : Uniform row.1 :=
  h row.1 (List.mem_of_getElem? (mem_displayedPrograms.mp hrow).1)

theorem ended_listingLines (h : ∀ program ∈ programs, Uniform program) :
    ∀ line ∈ listingLines range programs, Ended '\n' line := by
  intro line hline
  rcases List.mem_append.mp hline with hheader | hblock
  · exact ended_headerLines _ _ line hheader
  · obtain ⟨row, hrow, hline⟩ := List.mem_flatMap.mp hblock
    exact ended_blockLines (uniform_of_displayed h hrow) _ _ line hline

theorem widths_eq (range : Option ProcessListingRange) (programs : List ProgramGroup) :
    let labels := collectLabels (displayBounds range programs) programs.zipIdx
    labels.idWidth = columnWidth idHeader ((displayedPrograms range programs).map idLabel) ∧
      labels.programWidth =
        columnWidth programHeader ((displayedPrograms range programs).map programLabel) := by
  intro labels
  have hlabels : labels.LabelsOf (displayedPrograms range programs) := by
    rw [displayedPrograms_eq]
    exact labelsOf_collectLabels _ _
  have hfitted : labels.Fitted := fitted_collectLabels _ _
  rw [← hlabels.ids, ← hlabels.programs]
  exact ⟨hfitted.ids, hfitted.programs⟩

theorem listingLines_congr (h : ∀ program ∈ programs, Uniform program)
    (h' : ∀ program ∈ programs', Uniform program)
    (hshown : (displayedPrograms range programs).map shownProgram =
      (displayedPrograms range' programs').map shownProgram) :
    listingLines range programs = listingLines range' programs' := by
  have hids : (displayedPrograms range programs).map idLabel =
      (displayedPrograms range' programs').map idLabel := by
    refine map_eq_map (fun _ _ _ _ hrows ↦ ?_) hshown
    rw [idLabel, idLabel, (ShownProgram.mk.inj hrows).1]
  have hprograms : (displayedPrograms range programs).map programLabel =
      (displayedPrograms range' programs').map programLabel :=
    map_eq_map (fun _ _ _ _ ↦ programLabel_congr) hshown
  obtain ⟨hidWidth, hprogramWidth⟩ := widths_eq range programs
  obtain ⟨hidWidth', hprogramWidth'⟩ := widths_eq range' programs'
  rw [listingLines, listingLines, hidWidth, hprogramWidth, hidWidth', hprogramWidth', hids,
    hprograms, List.flatMap_def, List.flatMap_def]
  refine congrArg (fun blocks ↦ _ ++ List.flatten blocks) (map_eq_map ?_ hshown)
  exact fun _ hrow _ hrow' ↦
    blockLines_congr (uniform_of_displayed h hrow) (uniform_of_displayed h' hrow')

/-- Whatever files the processes have, and whatever characters their names, the
listing is the same text for two calls if and only if these show the same
programs: the same ids with the same names, numbers of processes and usages in
tenths of a percent, in the same order.  This is about the characters printed,
not about what a terminal makes of those in a name. -/
theorem listing_eq_iff (h : files.Collects round clock programs)
    (h' : files'.Collects round clock' programs')
    (range range' : Option ProcessListingRange) :
    processListing? range programs = processListing? range' programs' ↔
      (displayedPrograms range programs).map shownProgram =
        (displayedPrograms range' programs').map shownProgram := by
  have huniform := uniform_of_collects h
  have huniform' := uniform_of_collects h'
  rw [processListing?_eq_lines, processListing?_eq_lines, Option.some_inj]
  constructor
  · intro htext
    have hlines := flatten_inj (ended_listingLines huniform) (ended_listingLines huniform') htext
    exact flatMap_blockLines_inj (List.append_inj hlines rfl).2
  · intro hshown
    rw [listingLines_congr huniform huniform' hshown]

/-- An idle process with this name, and nothing else. -/
def idleProcess (comm : Text) (comm_line : '\n' ∉ comm) : KernelProcess :=
  ⟨comm, 'S', List.replicate 10 0, 0, 0, [['0']], comm_line, by decide, rfl, by simp⟩

def soleProcess (comm : Text) (comm_line : '\n' ∉ comm) : KernelProcesses where
  names := [.process 613 (by decide)]
  first _ := some (idleProcess comm comm_line)
  second _ := some (idleProcess comm comm_line)

theorem exists_program_soleProcess_iff {comm name : Text} {comm_line : '\n' ∉ comm}
    (h : (soleProcess comm comm_line).files.Collects round clock programs) :
    (∃ program ∈ programs, program.name = name) ↔ comm = name := by
  rw [KernelProcesses.exists_program_iff h]
  constructor
  · rintro ⟨pid, before, after, hcounted, hname⟩
    cases hcounted.second
    exact hname
  · intro hname
    exact ⟨613, _, _, ⟨List.mem_singleton_self _, rfl, rfl, UInt64.le_refl _⟩, hname⟩

def fineClock : Clock :=
  ⟨1024, 250, by decide, by decide⟩

/-- A blank behind a name can be told from those that fill its column. -/
theorem listing_eq_iff_blank :
    ∃ programs programs',
      (soleProcess ['v', 'i'] (by decide)).files.Collects .double fineClock programs ∧
        (soleProcess ['v', 'i', ' '] (by decide)).files.Collects .double fineClock programs' ∧
          processListing? none programs ≠ processListing? none programs' := by
  obtain ⟨programs, hprograms⟩ :=
    @KernelProcesses.exists_collects (soleProcess ['v', 'i'] (by decide)) .double fineClock
  obtain ⟨programs', hprograms'⟩ :=
    @KernelProcesses.exists_collects (soleProcess ['v', 'i', ' '] (by decide)) .double fineClock
  refine ⟨programs, programs', hprograms, hprograms', fun hlisting ↦ ?_⟩
  have hshown := (listing_eq_iff hprograms hprograms' none none).mp hlisting
  obtain ⟨program, hprogram, hname⟩ := (exists_program_soleProcess_iff hprograms).mpr rfl
  obtain ⟨n, hn⟩ := List.mem_iff_getElem?.mp hprogram
  have hrow : (program, n) ∈ displayedPrograms none programs :=
    mem_displayedPrograms.mpr ⟨hn, trivial⟩
  have hmem := List.mem_map_of_mem (f := shownProgram) hrow
  rw [hshown] at hmem
  obtain ⟨row', hrow', heq⟩ := List.mem_map.mp hmem
  have hother := (exists_program_soleProcess_iff hprograms').mp
    ⟨row'.1, List.mem_of_getElem? (mem_displayedPrograms.mp hrow').1,
      (ShownProgram.mk.inj heq).2.1.trans hname⟩
  exact absurd hother (by decide)

end BetterCpu.ProcessCommand
