import BetterCpu.ProcessCommand

/-!
# The text of the listing

What `print_process_listing` writes for the programs it has collected: a row
for each program and a table with a row for each of its processes.  The labels
are padded by their numbers of bytes.
-/

namespace BetterCpu.ProcessCommand

open Text

def clrBold : Text := "\x1b[1m".toList
def clrCyan : Text := "\x1b[36m".toList
def clrWhite : Text := "\x1b[37m".toList
def clrLcyan : Text := "\x1b[96m".toList
def clrLwhite : Text := "\x1b[97m".toList

/-- The nearest number of tenths, and of two the even one. -/
def tenths (value : ℚ) : ℕ :=
  let scaled := value * 10
  let low := scaled.floor.toNat
  if scaled - low < 1 / 2 then low
  else if 1 / 2 < scaled - low then low + 1
  else if low % 2 = 0 then low
  else low + 1

/-- A percentage is not negative. -/
def formatPercent (value : ℚ) : Text :=
  decimal (tenths value / 10) ++ '.' :: decimal (tenths value % 10) ++ ['%']

/-- The bytes of the box drawing characters. -/
def kBoxHorizontal : Text := "\xe2\x94\x80".toList
def kBoxTopLeft : Text := "\xe2\x94\x8c".toList
def kBoxTopMid : Text := "\xe2\x94\xac".toList
def kBoxTopRight : Text := "\xe2\x94\x90".toList
def kBoxMidLeft : Text := "\xe2\x94\x9c".toList
def kBoxMidMid : Text := "\xe2\x94\xbc".toList
def kBoxMidRight : Text := "\xe2\x94\xa4".toList
def kBoxBottomLeft : Text := "\xe2\x94\x94".toList
def kBoxBottomMid : Text := "\xe2\x94\xb4".toList
def kBoxBottomRight : Text := "\xe2\x94\x98".toList
def kBoxVertical : Text := "\xe2\x94\x82".toList

def repeatUtf8 (unit : Text) (count : ℕ) : Text :=
  (List.replicate count unit).flatten

def padRight (text : Text) (width : ℕ) : Text :=
  if width ≤ text.length then text else text ++ List.replicate (width - text.length) ' '

/-- The width of a column with this header. -/
def columnWidth (header : Text) (labels : List Text) : ℕ :=
  labels.foldl (fun width label ↦ max width label.length) header.length

def indent : Text := [' ', ' ', ' ', ' ']

def pidHeader : Text := "aPID".toList
def processHeader : Text := "Process".toList
def cpuHeader : Text := "CPU".toList
def idHeader : Text := "ID".toList
def programHeader : Text := "Program".toList

def tableBorder (left mid right : Text) (pidWidth processWidth cpuWidth : ℕ) : Text :=
  clrCyan ++ indent ++ left ++ repeatUtf8 kBoxHorizontal (pidWidth + 2) ++
    mid ++ repeatUtf8 kBoxHorizontal (processWidth + 2) ++
    mid ++ repeatUtf8 kBoxHorizontal (cpuWidth + 2) ++ right ++ clrReset ++ ['\n']

/-- The line in front of, between and behind the cells. -/
def cellLine : Text :=
  clrCyan ++ kBoxVertical ++ clrReset

def tableRow (pidLabel processLabel cpuLabel : Text) (pidWidth processWidth cpuWidth : ℕ) :
    Text :=
  clrCyan ++ indent ++ kBoxVertical ++ clrReset ++
    ' ' :: padRight pidLabel pidWidth ++ ' ' :: cellLine ++
    ' ' :: padRight processLabel processWidth ++ ' ' :: cellLine ++
    ' ' :: padRight cpuLabel cpuWidth ++ ' ' :: cellLine ++ ['\n']

/-- `print_program_process_table`. -/
def programProcessTable (program : ProgramGroup) : Text :=
  let pidLabels := program.processes.mapIdx fun processIndex _ ↦ 'p' :: decimal processIndex
  let cpuLabels := program.processes.map fun process ↦ formatPercent process.cpuPercent
  let pidWidth := columnWidth pidHeader pidLabels
  let processWidth := columnWidth processHeader (program.processes.map ProcessSample.name)
  let cpuWidth := columnWidth cpuHeader cpuLabels
  tableBorder kBoxTopLeft kBoxTopMid kBoxTopRight pidWidth processWidth cpuWidth ++
    tableRow pidHeader processHeader cpuHeader pidWidth processWidth cpuWidth ++
    tableBorder kBoxMidLeft kBoxMidMid kBoxMidRight pidWidth processWidth cpuWidth ++
    (program.processes.mapIdx fun processIndex process ↦
      tableRow ('p' :: decimal processIndex) process.name (formatPercent process.cpuPercent)
        pidWidth processWidth cpuWidth).flatten ++
    tableBorder kBoxBottomLeft kBoxBottomMid kBoxBottomRight pidWidth processWidth cpuWidth

/-! ## The listing -/

/-- The first and the last index that are shown. -/
def displayBounds (range : Option ProcessListingRange) (programs : List ProgramGroup) : ℕ × ℕ :=
  match range with
  | none => (0, if programs = [] then 0 else programs.length - 1)
  | some range => (range.start.toNat, range.stop.toNat)

/-- The condition on which both loops continue. -/
def isSkipped (bounds : ℕ × ℕ) (programIndex : ℕ) : Bool :=
  programIndex < bounds.1 || bounds.2 < programIndex

def idLabel (row : ProgramGroup × ℕ) : Text :=
  '[' :: programToken row.2 ++ [']']

def programLabel (row : ProgramGroup × ℕ) : Text :=
  row.1.name ++ ' ' :: '(' :: decimal row.1.processes.length ++ [')']

def cpuLabel (row : ProgramGroup × ℕ) : Text :=
  formatPercent row.1.totalCpuPercent

/-- The label vectors with the widths of their columns. -/
structure Labels where
  ids : List Text
  programs : List Text
  cpus : List Text
  idWidth : ℕ
  programWidth : ℕ
  cpuWidth : ℕ

/-- One turn of the first loop. -/
def addLabels (bounds : ℕ × ℕ) (labels : Labels) (row : ProgramGroup × ℕ) : Labels :=
  if isSkipped bounds row.2 then labels
  else
    { ids := labels.ids ++ [idLabel row]
      programs := labels.programs ++ [programLabel row]
      cpus := labels.cpus ++ [cpuLabel row]
      idWidth := max labels.idWidth (idLabel row).length
      programWidth := max labels.programWidth (programLabel row).length
      cpuWidth := max labels.cpuWidth (cpuLabel row).length }

def collectLabels (bounds : ℕ × ℕ) (rows : List (ProgramGroup × ℕ)) : Labels :=
  rows.foldl (addLabels bounds)
    ⟨[], [], [], idHeader.length, programHeader.length, cpuHeader.length⟩

/-- The cells of the last column are not padded. -/
def printProgram (idWidth programWidth : ℕ) (idLabel programLabel cpuLabel : Text)
    (program : ProgramGroup) : Text :=
  clrLgreen ++ padRight idLabel idWidth ++ clrReset ++ ' ' :: ' ' ::
    padRight programLabel programWidth ++ ' ' :: ' ' ::
    clrLcyan ++ cpuLabel ++ clrReset ++ '\n' :: programProcessTable program ++ ['\n']

/-- The second loop with its own index into the vectors; there is no text if it
leaves them. -/
def printPrograms (bounds : ℕ × ℕ) (labels : Labels) :
    ℕ → List (ProgramGroup × ℕ) → Option Text
  | _, [] => some []
  | labelIndex, row :: rows =>
      if isSkipped bounds row.2 then printPrograms bounds labels labelIndex rows
      else do
        let idLabel ← labels.ids[labelIndex]?
        let programLabel ← labels.programs[labelIndex]?
        let cpuLabel ← labels.cpus[labelIndex]?
        let rest ← printPrograms bounds labels (labelIndex + 1) rows
        return printProgram labels.idWidth labels.programWidth idLabel programLabel cpuLabel
          row.1 ++ rest

/-- `print_process_listing`. -/
def processListing? (range : Option ProcessListingRange) (programs : List ProgramGroup) :
    Option Text := do
  let bounds := displayBounds range programs
  let labels := collectLabels bounds programs.zipIdx
  let headerLine := padRight idHeader labels.idWidth ++ ' ' :: ' ' ::
    padRight programHeader labels.programWidth ++ ' ' :: ' ' :: cpuHeader
  let rows ← printPrograms bounds labels 0 programs.zipIdx
  return clrBold ++ clrLwhite ++ headerLine ++ clrReset ++ '\n' ::
    clrWhite ++ List.replicate headerLine.length '-' ++ clrReset ++ '\n' :: rows

/-! ## The two loops are aligned -/

/-- What the first loop has made of some rows. -/
structure Labels.LabelsOf (labels : Labels) (rows : List (ProgramGroup × ℕ)) : Prop where
  ids : labels.ids = rows.map idLabel
  programs : labels.programs = rows.map programLabel
  cpus : labels.cpus = rows.map cpuLabel

variable {bounds : ℕ × ℕ} {labels : Labels} {rows : List (ProgramGroup × ℕ)}

theorem displayedPrograms_eq (range : Option ProcessListingRange) (programs : List ProgramGroup) :
    displayedPrograms range programs =
      programs.zipIdx.filter fun row ↦ !isSkipped (displayBounds range programs) row.2 := by
  cases range <;> rfl

theorem Labels.LabelsOf.foldl {front : List (ProgramGroup × ℕ)} (h : labels.LabelsOf front)
    (rows : List (ProgramGroup × ℕ)) :
    (rows.foldl (addLabels bounds) labels).LabelsOf
      (front ++ rows.filter fun row ↦ !isSkipped bounds row.2) := by
  induction rows generalizing labels front with
  | nil => simpa using h
  | cons row rows ih =>
      rw [List.foldl_cons]
      cases hskip : isSkipped bounds row.2 with
      | true => simpa [addLabels, hskip] using ih h
      | false =>
          have hrow : (addLabels bounds labels row).LabelsOf (front ++ [row]) := by
            simp only [addLabels, hskip, Bool.false_eq_true, if_false]
            exact ⟨by simp [h.ids], by simp [h.programs], by simp [h.cpus]⟩
          simpa [hskip] using ih hrow

theorem labelsOf_collectLabels (bounds : ℕ × ℕ) (rows : List (ProgramGroup × ℕ)) :
    (collectLabels bounds rows).LabelsOf (rows.filter fun row ↦ !isSkipped bounds row.2) := by
  have hempty : Labels.LabelsOf
      ⟨[], [], [], idHeader.length, programHeader.length, cpuHeader.length⟩ [] := ⟨rfl, rfl, rfl⟩
  rw [← List.nil_append (List.filter _ _)]
  exact hempty.foldl rows

/-- Behind as many labels as it has used, the second loop finds those of the
rows that are left. -/
theorem printPrograms_eq {front : List (ProgramGroup × ℕ)}
    (h : labels.LabelsOf (front ++ rows.filter fun row ↦ !isSkipped bounds row.2)) :
    printPrograms bounds labels front.length rows =
      some ((rows.filter fun row ↦ !isSkipped bounds row.2).flatMap fun row ↦
        printProgram labels.idWidth labels.programWidth (idLabel row) (programLabel row)
          (cpuLabel row) row.1) := by
  induction rows generalizing front with
  | nil => rfl
  | cons row rows ih =>
      rw [printPrograms]
      cases hskip : isSkipped bounds row.2 with
      | true =>
          simp only [List.filter_cons, hskip, Bool.not_true, Bool.false_eq_true, if_false] at h
          simpa [hskip] using ih h
      | false =>
          simp only [List.filter_cons, hskip, Bool.not_false, if_true] at h
          have hid : labels.ids[front.length]? = some (idLabel row) := by simp [h.ids]
          have hprogram : labels.programs[front.length]? = some (programLabel row) := by
            simp [h.programs]
          have hcpu : labels.cpus[front.length]? = some (cpuLabel row) := by simp [h.cpus]
          have hlabels : labels.LabelsOf
              ((front ++ [row]) ++ rows.filter fun row ↦ !isSkipped bounds row.2) := by
            simpa using h
          have hrest := ih hlabels
          rw [List.length_append, List.length_singleton] at hrest
          simp [hskip, hid, hprogram, hcpu, hrest]

/-- With the labels of the first loop, the second one prints each of the
displayed programs with its own. -/
theorem printPrograms_collectLabels (range : Option ProcessListingRange)
    (programs : List ProgramGroup) :
    let bounds := displayBounds range programs
    let labels := collectLabels bounds programs.zipIdx
    printPrograms bounds labels 0 programs.zipIdx =
      some ((displayedPrograms range programs).flatMap fun row ↦
        printProgram labels.idWidth labels.programWidth (idLabel row) (programLabel row)
          (cpuLabel row) row.1) := by
  intro bounds labels
  have hlabels := labelsOf_collectLabels bounds programs.zipIdx
  rw [← List.nil_append (List.filter _ _)] at hlabels
  rw [displayedPrograms_eq]
  exact printPrograms_eq hlabels

/-- The header line with the rule below it. -/
def listingHeader (idWidth programWidth : ℕ) : Text :=
  let headerLine := padRight idHeader idWidth ++ ' ' :: ' ' ::
    padRight programHeader programWidth ++ ' ' :: ' ' :: cpuHeader
  clrBold ++ clrLwhite ++ headerLine ++ clrReset ++ '\n' ::
    clrWhite ++ List.replicate headerLine.length '-' ++ clrReset ++ ['\n']

theorem processListing?_eq (range : Option ProcessListingRange) (programs : List ProgramGroup) :
    let labels := collectLabels (displayBounds range programs) programs.zipIdx
    processListing? range programs =
      some (listingHeader labels.idWidth labels.programWidth ++
        ((displayedPrograms range programs).map fun row ↦
          printProgram labels.idWidth labels.programWidth (idLabel row) (programLabel row)
            (cpuLabel row) row.1).flatten) := by
  intro labels
  have hrows := printPrograms_collectLabels range programs
  simp only [processListing?, hrows, List.flatMap_def]
  simp [listingHeader, labels]

/-- The listing has a text, so that no access leaves the vectors. -/
theorem isSome_processListing? (range : Option ProcessListingRange) (programs : List ProgramGroup) :
    (processListing? range programs).isSome = true := by
  rw [processListing?_eq]
  rfl

def processListing (range : Option ProcessListingRange) (programs : List ProgramGroup) : Text :=
  (processListing? range programs).get (isSome_processListing? range programs)

/-! ## The columns have one width -/

/-- The cell has the label with blanks behind it, up to the width. -/
structure Fills (width : ℕ) (label cell : Text) : Prop where
  blanks : ∃ n, cell = label ++ List.replicate n ' '
  length : cell.length = width

theorem fills_padRight {label : Text} {width : ℕ} (h : label.length ≤ width) :
    Fills width label (padRight label width) := by
  unfold padRight
  split
  · next hle => exact ⟨⟨0, (List.append_nil _).symm⟩, le_antisymm h hle⟩
  · refine ⟨⟨_, rfl⟩, ?_⟩
    rw [List.length_append, List.length_replicate]
    omega

theorem columnWidth_append (header : Text) (front : List Text) (label : Text) :
    columnWidth header (front ++ [label]) = max (columnWidth header front) label.length := by
  simp [columnWidth]

theorem header_le_columnWidth (header : Text) (texts : List Text) :
    header.length ≤ columnWidth header texts := by
  induction texts using List.reverseRecOn with
  | nil => exact le_rfl
  | append_singleton front label ih =>
      rw [columnWidth_append]
      exact le_max_of_le_left ih

theorem le_columnWidth {header label : Text} {texts : List Text} (h : label ∈ texts) :
    label.length ≤ columnWidth header texts := by
  induction texts using List.reverseRecOn with
  | nil => cases h
  | append_singleton front last ih =>
      rw [columnWidth_append]
      rcases List.mem_append.mp h with hfront | hlast
      · exact le_max_of_le_left (ih hfront)
      · rw [List.mem_singleton.mp hlast]
        exact le_max_right _ _

/-- The widths are those of columns with the labels. -/
structure Labels.Fitted (labels : Labels) : Prop where
  ids : labels.idWidth = columnWidth idHeader labels.ids
  programs : labels.programWidth = columnWidth programHeader labels.programs

theorem Labels.Fitted.addLabels (h : labels.Fitted) (row : ProgramGroup × ℕ) :
    (addLabels bounds labels row).Fitted := by
  unfold ProcessCommand.addLabels
  split
  · exact h
  · constructor
    · rw [columnWidth_append, h.ids]
    · rw [columnWidth_append, h.programs]

theorem fitted_collectLabels (bounds : ℕ × ℕ) (rows : List (ProgramGroup × ℕ)) :
    (collectLabels bounds rows).Fitted := by
  have hempty : Labels.Fitted
      ⟨[], [], [], idHeader.length, programHeader.length, cpuHeader.length⟩ := ⟨rfl, rfl⟩
  exact List.foldlRecOn rows _ hempty fun _ hlabels row _ ↦ hlabels.addLabels row

/-! ## What is printed -/

/-- The headers stand in cells of their columns, with a rule below. -/
def IsHeader (idWidth programWidth : ℕ) (text : Text) : Prop :=
  ∃ idCell programCell, Fills idWidth idHeader idCell ∧
    Fills programWidth programHeader programCell ∧
      text = clrBold ++ clrLwhite ++ idCell ++ [' ', ' '] ++ programCell ++ [' ', ' '] ++
        cpuHeader ++ clrReset ++ ['\n'] ++ clrWhite ++
        List.replicate (idWidth + 2 + programWidth + 2 + cpuHeader.length) '-' ++
        clrReset ++ ['\n']

/-- The program with its own labels, and the table of its processes below. -/
def IsRow (idWidth programWidth : ℕ) (row : ProgramGroup × ℕ) (text : Text) : Prop :=
  ∃ idCell programCell, Fills idWidth (idLabel row) idCell ∧
    Fills programWidth (programLabel row) programCell ∧
      text = clrLgreen ++ idCell ++ clrReset ++ [' ', ' '] ++ programCell ++ [' ', ' '] ++
        clrLcyan ++ cpuLabel row ++ clrReset ++ ['\n'] ++ programProcessTable row.1 ++ ['\n']

theorem isRow_printProgram {row : ProgramGroup × ℕ} {idWidth programWidth : ℕ}
    (hid : (idLabel row).length ≤ idWidth) (hprogram : (programLabel row).length ≤ programWidth) :
    IsRow idWidth programWidth row (printProgram idWidth programWidth (idLabel row)
      (programLabel row) (cpuLabel row) row.1) := by
  refine ⟨_, _, fills_padRight hid, fills_padRight hprogram, ?_⟩
  simp [printProgram]

/-- The rows are in the order of the list, so that none of them is shown twice. -/
theorem pairwise_displayedPrograms (range : Option ProcessListingRange)
    (programs : List ProgramGroup) :
    (displayedPrograms range programs).Pairwise fun row row' ↦ row.2 < row'.2 := by
  rw [displayedPrograms_eq]
  apply List.Pairwise.filter
  rw [← List.pairwise_map (R := (· < ·)), List.zipIdx_map_snd]
  exact List.pairwise_lt_range'

theorem isHeader_listingHeader {idWidth programWidth : ℕ} (hid : idHeader.length ≤ idWidth)
    (hprogram : programHeader.length ≤ programWidth) :
    IsHeader idWidth programWidth (listingHeader idWidth programWidth) := by
  have hidCell := fills_padRight hid
  have hprogramCell := fills_padRight hprogram
  refine ⟨_, _, hidCell, hprogramCell, ?_⟩
  have hlength : (padRight idHeader idWidth ++ ' ' :: ' ' ::
      padRight programHeader programWidth ++ ' ' :: ' ' :: cpuHeader).length =
        idWidth + 2 + programWidth + 2 + cpuHeader.length := by
    simp only [List.length_append, List.length_cons, hidCell.length, hprogramCell.length]
    omega
  simp [listingHeader, ← hlength]

/-- The listing has a row for each program of the list whose index is in the
range, in their order and with the labels of that index.  No access leaves the
label vectors, and each of the two padded columns has one width in bytes, from
its header on. -/
theorem listing_shows_range (range : Option ProcessListingRange) (programs : List ProgramGroup) :
    ∃ (idWidth programWidth : ℕ) (header : Text) (shown : List (ProgramGroup × ℕ))
      (texts : List Text),
      processListing? range programs = some (header ++ texts.flatten) ∧
        IsHeader idWidth programWidth header ∧
        List.Forall₂ (IsRow idWidth programWidth) shown texts ∧
        (∀ program programIndex, (program, programIndex) ∈ shown ↔
          programs[programIndex]? = some program ∧ InRange range programIndex) ∧
        shown.Pairwise fun row row' ↦ row.2 < row'.2 := by
  let bounds := displayBounds range programs
  let labels := collectLabels bounds programs.zipIdx
  have hlabels : labels.LabelsOf (displayedPrograms range programs) := by
    rw [displayedPrograms_eq]
    exact labelsOf_collectLabels bounds programs.zipIdx
  have hfitted : labels.Fitted := fitted_collectLabels bounds programs.zipIdx
  refine ⟨labels.idWidth, labels.programWidth, _, displayedPrograms range programs, _,
    processListing?_eq range programs, ?_, ?_, fun _ _ ↦ mem_displayedPrograms,
    pairwise_displayedPrograms range programs⟩
  · apply isHeader_listingHeader
    · rw [hfitted.ids]
      exact header_le_columnWidth _ _
    · rw [hfitted.programs]
      exact header_le_columnWidth _ _
  · rw [List.forall₂_map_right_iff, List.forall₂_same]
    intro row hrow
    apply isRow_printProgram
    · rw [hfitted.ids]
      apply le_columnWidth
      rw [hlabels.ids]
      exact List.mem_map_of_mem hrow
    · rw [hfitted.programs]
      apply le_columnWidth
      rw [hlabels.programs]
      exact List.mem_map_of_mem hrow

-- without programs, the columns are as wide as their headers
example : processListing? none [] = some (listingHeader 2 7) := rfl

end BetterCpu.ProcessCommand
