import BetterCpu.ProcessCommand.Listing
import BetterCpu.ProcessCommand.Overflow

/-!
# The command line of `p`

`run_process_command` scans the arguments from the left; the value of an option
is the next argument, whatever it looks like.  A later value replaces an earlier
one, and what is done depends on what the scan has left.
-/

namespace BetterCpu.ProcessCommand

open Text

def helpShort : Text := ['-', 'h']
def helpLong : Text := "--help".toList
def listShort : Text := ['-', 'l']
def listLong : Text := "--list".toList
def killShort : Text := ['-', 'k']
def killLong : Text := "--kill".toList
def rangeShort : Text := ['-', 'r']
def rangeLong : Text := "--range".toList

/-- What the scan leaves in its variables; a requested id or range is there. -/
structure Requests where
  help : Bool
  killId : Option Text
  rangeToken : Option Text

/-- The loop over the arguments.  An error is the text of the message. -/
def scanArguments (requests : Requests) : List Text → Except Text Requests
  | [] => .ok requests
  | option :: arguments =>
      if option = helpShort ∨ option = helpLong then
        scanArguments { requests with help := true } arguments
      else if option = listShort ∨ option = listLong then scanArguments requests arguments
      else if option = killShort ∨ option = killLong then
        match arguments with
        | [] => .error ("[!!] missing id argument for ".toList ++ option)
        | value :: arguments => scanArguments { requests with killId := some value } arguments
      else if option = rangeShort ∨ option = rangeLong then
        match arguments with
        | [] => .error ("[!!] missing range argument for ".toList ++ option)
        | value :: arguments => scanArguments { requests with rangeToken := some value } arguments
      else .error ("[!!] unknown option '".toList ++ option ++ "' for command 'p'".toList)

def helpLine (command description : Text) : Text :=
  "  ".toList ++ clrCyan ++ command ++ clrReset ++ description ++ ['\n']

/-- `print_process_help`. -/
def processHelp : Text :=
  '\n' :: clrBold ++ clrLwhite ++ "bettercpu p".toList ++ clrReset ++
    " - List and manage running programs and processes\n".toList ++
    '\n' :: clrBold ++ "Usage:\n".toList ++ clrReset ++
    helpLine "sudo bettercpu p".toList
      "                    List all running programs and processes by CPU usage".toList ++
    helpLine "sudo bettercpu p -l, --list".toList
      "         List all running programs and processes by CPU usage".toList ++
    helpLine "sudo bettercpu p -k, --kill <id>".toList
      "    Kill a program or process using its temporary id".toList ++
    helpLine "sudo bettercpu p -r, --range <a:b>".toList
      "  Limit the listing to programs with id from a to b".toList ++
    helpLine "bettercpu p -h, --help".toList "              Show this help message".toList ++
    ['\n']

def listed (range : Option ProcessListingRange) (programs : List ProgramGroup) : CommandOutcome :=
  ⟨0, processListing range programs, [], []⟩

/-- What is done behind the scan. -/
def dispatch (root : Bool) (kill : Int32 → Bool) (programs : List ProgramGroup)
    (requests : Requests) : Except StdException CommandOutcome :=
  if requests.help then return ⟨0, processHelp, [], []⟩
  else
    match requests.killId with
    | some killId => runProcessKillCommand root kill programs killId
    | none =>
        match requests.rangeToken with
        | none => return listed none programs
        | some rangeToken => do
            let (valid, range) ← parseListingRange rangeToken ⟨0, 0⟩
            if !valid then
              return failure ("[!!] invalid range '".toList ++ rangeToken ++
                "', expected format START:END".toList) []
            return listed (some range) programs

/-- `arguments` are those behind the command itself. -/
def runProcessCommand (root : Bool) (kill : Int32 → Bool) (programs : List ProgramGroup)
    (arguments : List Text) : Except StdException CommandOutcome :=
  match scanArguments ⟨false, none, none⟩ arguments with
  | .error message => return failure message []
  | .ok requests => dispatch root kill programs requests

/-! ## Command lines -/

/-- An option with its value. -/
inductive CommandOption where
  | help
  | list
  | kill (killId : Text)
  | range (rangeToken : Text)

/-- The arguments are these options in this order. -/
inductive CommandLine : List Text → List CommandOption → Prop
  | nil : CommandLine [] []
  | help {option : Text} {arguments : List Text} {options : List CommandOption}
      (hoption : option = helpShort ∨ option = helpLong) (h : CommandLine arguments options) :
      CommandLine (option :: arguments) (.help :: options)
  | list {option : Text} {arguments : List Text} {options : List CommandOption}
      (hoption : option = listShort ∨ option = listLong) (h : CommandLine arguments options) :
      CommandLine (option :: arguments) (.list :: options)
  | kill {option value : Text} {arguments : List Text} {options : List CommandOption}
      (hoption : option = killShort ∨ option = killLong) (h : CommandLine arguments options) :
      CommandLine (option :: value :: arguments) (.kill value :: options)
  | range {option value : Text} {arguments : List Text} {options : List CommandOption}
      (hoption : option = rangeShort ∨ option = rangeLong) (h : CommandLine arguments options) :
      CommandLine (option :: value :: arguments) (.range value :: options)

/-- The effect of one option on the variables of the scan. -/
def Requests.apply (requests : Requests) : CommandOption → Requests
  | .help => { requests with help := true }
  | .list => requests
  | .kill killId => { requests with killId := some killId }
  | .range rangeToken => { requests with rangeToken := some rangeToken }

/-! ## The scan is a fold over the options -/

theorem scanArguments_append {front : List Text} {options : List CommandOption}
    (h : CommandLine front options) (rest : List Text) (requests : Requests) :
    scanArguments requests (front ++ rest) =
      scanArguments (options.foldl Requests.apply requests) rest := by
  induction h generalizing requests with
  | nil => rfl
  | help hoption _ ih =>
      rw [List.cons_append, scanArguments.eq_def]
      simp only [if_pos hoption]
      exact ih _
  | list hoption _ ih =>
      have hne : ∀ o, o = listShort ∨ o = listLong → ¬ (o = helpShort ∨ o = helpLong) := by
        rintro o (rfl | rfl) <;> decide
      rw [List.cons_append, scanArguments.eq_def]
      simp only [if_neg (hne _ hoption), if_pos hoption]
      exact ih _
  | kill hoption _ ih =>
      have hne : ∀ o, o = killShort ∨ o = killLong →
          ¬ (o = helpShort ∨ o = helpLong) ∧ ¬ (o = listShort ∨ o = listLong) := by
        rintro o (rfl | rfl) <;> decide
      obtain ⟨hhelp, hlist⟩ := hne _ hoption
      simp only [List.cons_append, scanArguments, if_neg hhelp, if_neg hlist, if_pos hoption]
      exact ih _
  | range hoption _ ih =>
      have hne : ∀ o, o = rangeShort ∨ o = rangeLong → ¬ (o = helpShort ∨ o = helpLong) ∧
          ¬ (o = listShort ∨ o = listLong) ∧ ¬ (o = killShort ∨ o = killLong) := by
        rintro o (rfl | rfl) <;> decide
      obtain ⟨hhelp, hlist, hkill⟩ := hne _ hoption
      simp only [List.cons_append, scanArguments, if_neg hhelp, if_neg hlist, if_neg hkill,
        if_pos hoption]
      exact ih _

theorem scanArguments_of_commandLine {arguments : List Text} {options : List CommandOption}
    (h : CommandLine arguments options) (requests : Requests) :
    scanArguments requests arguments = .ok (options.foldl Requests.apply requests) := by
  have happend := scanArguments_append h [] requests
  rwa [List.append_nil] at happend

/-- Without an error the arguments are options. -/
theorem commandLine_of_scanArguments {arguments : List Text} {requests scanned : Requests}
    (h : scanArguments requests arguments = .ok scanned) :
    ∃ options, CommandLine arguments options := by
  fun_induction scanArguments requests arguments with
  | case1 => exact ⟨[], .nil⟩
  | case2 _ _ _ hoption ih =>
      obtain ⟨options, hoptions⟩ := ih h
      exact ⟨_, .help hoption hoptions⟩
  | case3 _ _ _ _ hoption ih =>
      obtain ⟨options, hoptions⟩ := ih h
      exact ⟨_, .list hoption hoptions⟩
  | case4 => cases h
  | case5 _ _ _ _ hoption _ _ ih =>
      obtain ⟨options, hoptions⟩ := ih h
      exact ⟨_, .kill hoption hoptions⟩
  | case6 => cases h
  | case7 _ _ _ _ _ hoption _ _ ih =>
      obtain ⟨options, hoptions⟩ := ih h
      exact ⟨_, .range hoption hoptions⟩
  | case8 => cases h

/-! ## What the scan leaves -/

def CommandOption.killId? : CommandOption → Option Text
  | .kill killId => some killId
  | _ => none

def CommandOption.rangeToken? : CommandOption → Option Text
  | .range rangeToken => some rangeToken
  | _ => none

/-- The help is requested by any of its options; of the other values the last
one counts. -/
theorem foldl_apply (options : List CommandOption) (requests : Requests) :
    ((options.foldl Requests.apply requests).help = true ↔
        requests.help = true ∨ .help ∈ options) ∧
      (options.foldl Requests.apply requests).killId =
        (options.filterMap CommandOption.killId?).getLast?.or requests.killId ∧
      (options.foldl Requests.apply requests).rangeToken =
        (options.filterMap CommandOption.rangeToken?).getLast?.or requests.rangeToken := by
  induction options generalizing requests with
  | nil => simp
  | cons option options ih =>
      obtain ⟨hhelp, hkill, hrange⟩ := ih (requests.apply option)
      rw [List.foldl_cons, hhelp, hkill, hrange]
      cases option <;>
        simp [Requests.apply, CommandOption.killId?, CommandOption.rangeToken?, List.getLast?_cons]

/-- What the whole command line leaves. -/
def requestsOf (options : List CommandOption) : Requests :=
  options.foldl Requests.apply ⟨false, none, none⟩

theorem help_requestsOf (options : List CommandOption) :
    (requestsOf options).help = true ↔ .help ∈ options := by
  simpa [requestsOf] using (foldl_apply options ⟨false, none, none⟩).1

theorem killId_requestsOf (options : List CommandOption) :
    (requestsOf options).killId = (options.filterMap CommandOption.killId?).getLast? := by
  simpa [requestsOf] using (foldl_apply options ⟨false, none, none⟩).2.1

theorem rangeToken_requestsOf (options : List CommandOption) :
    (requestsOf options).rangeToken =
      (options.filterMap CommandOption.rangeToken?).getLast? := by
  simpa [requestsOf] using (foldl_apply options ⟨false, none, none⟩).2.2

/-- What is requested stays requested. -/
theorem help_of_scanArguments {arguments : List Text} {requests scanned : Requests}
    (h : scanArguments requests arguments = .ok scanned) (hhelp : requests.help = true) :
    scanned.help = true := by
  obtain ⟨options, hoptions⟩ := commandLine_of_scanArguments h
  rw [scanArguments_of_commandLine hoptions] at h
  cases h
  exact (foldl_apply options requests).1.mpr (Or.inl hhelp)

/-! ## Malformed command lines -/

def Rejected (rangeToken : Text) : Prop :=
  ∃ range, parseListingRange rangeToken ⟨0, 0⟩ = .ok (false, range)

/-- An argument is an unknown option or one without its value, so that the
arguments are no options, or a range is rejected. -/
def Malformed (arguments : List Text) : Prop :=
  (¬ ∃ options, CommandLine arguments options) ∨
    ∃ options token, CommandLine arguments options ∧ .range token ∈ options ∧ Rejected token

/-- The help is among the options that the arguments start with. -/
def HelpParsed (arguments : List Text) : Prop :=
  ∃ front rest options, arguments = front ++ rest ∧ CommandLine front options ∧ .help ∈ options

/-- Behind a rejected range and without the help nothing is done: an id that
replaces the listing is refused as well, and otherwise the range that counts
is a rejected one. -/
def StopsAtRange (root : Bool) (programs : List ProgramGroup) (options : List CommandOption) :
    Prop :=
  match (options.filterMap CommandOption.killId?).getLast? with
  | some killId =>
      root = false ∨ ¬ OversizedId killId ∧ ¬ ∃ pids, Denotes programs killId pids
  | none => ∀ token, (options.filterMap CommandOption.rangeToken?).getLast? = some token →
      Rejected token

/-- The command refuses to do anything. -/
def Refuses (result : Except StdException CommandOutcome) : Prop :=
  ∃ outcome, result = .ok outcome ∧ outcome.signalled = [] ∧ outcome.exitCode = 1

/-- A help option that is parsed is one of the options. -/
theorem help_mem_of_helpParsed {arguments : List Text} {options : List CommandOption}
    (h : CommandLine arguments options) (hparsed : HelpParsed arguments) : .help ∈ options := by
  obtain ⟨front, rest, options', rfl, hfront, hmem⟩ := hparsed
  have hscan := scanArguments_of_commandLine h ⟨false, none, none⟩
  rw [scanArguments_append hfront] at hscan
  exact (help_requestsOf options).mp
    (help_of_scanArguments hscan ((help_requestsOf options').mpr hmem))

/-! ## When an id is refused -/

theorem refuses_failure (message : Text) : Refuses (.ok (failure message [])) :=
  ⟨_, rfl, rfl, rfl⟩

theorem refuses_killByProcessId_iff (kill : Int32 → Bool) (programs : List ProgramGroup)
    (idToken : Text) (programId processId : UInt64) :
    Refuses (.ok (killByProcessId kill programs idToken programId processId)) ↔
      (programs[programId.toNat]?.bind fun program ↦ program.processes[processId.toNat]?) =
        none := by
  cases hprocess :
    programs[programId.toNat]?.bind fun program ↦ program.processes[processId.toNat]? with
  | none =>
      simp only [killByProcessId, hprocess]
      exact iff_of_true (refuses_failure _) trivial
  | some process =>
      refine iff_of_false ?_ (by simp)
      rintro ⟨outcome, hok, hsignalled, -⟩
      have htargets := signalled_killByProcessId kill programs idToken programId processId
      rw [Except.ok.inj hok, hsignalled, processTargets, hprocess] at htargets
      cases htargets

theorem refuses_killByProgramId_iff (kill : Int32 → Bool) (programs : List ProgramGroup)
    (idToken : Text) (programId : UInt64) :
    Refuses (.ok (killByProgramId kill programs idToken programId)) ↔
      programs[programId.toNat]? = none := by
  cases hprogram : programs[programId.toNat]? with
  | none =>
      simp only [killByProgramId, hprogram]
      exact iff_of_true (refuses_failure _) trivial
  | some program =>
      refine iff_of_false ?_ (by simp)
      rintro ⟨outcome, hok, hsignalled, hexit⟩
      have hterminated := killProgram_fst kill program
      have hpids := killProgram_snd kill program
      simp only [killByProgramId, hprogram] at hok
      cases hok
      cases hfst : (killProgram kill program).1 with
      | true => simp [hfst, success] at hexit
      | false =>
          -- the signal that failed was sent
          simp only [hfst, failure, Bool.not_false, if_true] at hsignalled
          rw [hfst, hpids.symm.trans hsignalled] at hterminated
          cases hterminated

variable {token : Text}

theorem denotes_separated_iff {programs : List ProgramGroup} {first second : Text}
    (htoken : Separated 'p' token first second) :
    (∃ pids, Denotes programs token pids) ↔
      (programs[ofDigits first]?.bind fun program ↦ program.processes[ofDigits second]?) ≠
        none := by
  constructor
  · rintro ⟨pids, hdenotes⟩
    cases hdenotes with
    | process htoken' hprogram hprocess =>
        obtain ⟨rfl, rfl⟩ := htoken.unique isDigit_p htoken'
        simp [hprogram, hprocess]
    | program hdigits _ => exact absurd hdigits (not_digits_of_mem isDigit_p (by simp [htoken.eq]))
  · intro hne
    obtain ⟨process, hprocess⟩ := Option.ne_none_iff_exists'.mp hne
    obtain ⟨program, hprogram, hprocess⟩ := Option.bind_eq_some_iff.mp hprocess
    exact ⟨_, .process htoken hprogram hprocess⟩

theorem denotes_digits_iff {programs : List ProgramGroup} (htoken : Digits token) :
    (∃ pids, Denotes programs token pids) ↔ programs[ofDigits token]? ≠ none := by
  constructor
  · rintro ⟨pids, hdenotes⟩
    cases hdenotes with
    | process htoken' _ _ =>
        exact absurd htoken (not_digits_of_mem isDigit_p (by simp [htoken'.eq]))
    | program _ hprogram => simp [hprogram]
  · intro hne
    obtain ⟨program, hprogram⟩ := Option.ne_none_iff_exists'.mp hne
    exact ⟨_, .program htoken hprogram⟩

/-- An id is refused if its numbers fit and it denotes nothing. -/
theorem refuses_runProcessKillCommand_iff (root : Bool) (kill : Int32 → Bool)
    (programs : List ProgramGroup) :
    Refuses (runProcessKillCommand root kill programs token) ↔
      root = false ∨ ¬ OversizedId token ∧ ¬ ∃ pids, Denotes programs token pids := by
  cases root with
  | false =>
      rw [runProcessKillCommand_of_not_root]
      exact iff_of_true (refuses_failure _) (Or.inl rfl)
  | true =>
      rw [eq_false (by decide : ¬ true = false), false_or]
      by_cases hlarge : OversizedId token
      · refine iff_of_false ?_ (fun h ↦ h.1 hlarge)
        rintro ⟨outcome, hrun, -⟩
        exact (runProcessKillCommand_returns_iff kill programs).mp ⟨outcome, hrun⟩ hlarge
      rw [and_iff_right hlarge]
      by_cases hseparated : ∃ first second, Separated 'p' token first second
      · obtain ⟨first, second, htoken⟩ := hseparated
        have hsmall := smallRuns_of_not_oversizedSide isDigit_p htoken
          ((not_oversizedId_of_separated htoken).mp hlarge)
        obtain ⟨programId, processId, hfirst, hsecond, hrun⟩ :=
          runProcessKillCommand_eq_of_separated kill programs hsmall htoken
        rw [hrun, refuses_killByProcessId_iff, hfirst, hsecond, denotes_separated_iff htoken,
          not_not]
      by_cases hdigits : Digits token
      · have hsmall := smallRuns_of_digits hdigits ((not_oversizedId_of_digits hdigits).mp hlarge)
        obtain ⟨programId, hprogram, hrun⟩ :=
          runProcessKillCommand_eq_of_digits kill programs hsmall hdigits
        rw [hrun, refuses_killByProgramId_iff, hprogram, denotes_digits_iff hdigits, not_not]
      · rw [runProcessKillCommand_of_neither kill programs hseparated hdigits]
        exact iff_of_true (refuses_failure _)
          fun ⟨_, hpids⟩ ↦ not_denotes_of_neither hseparated hdigits hpids

/-- Without an id a range that counts is refused if it is rejected. -/
theorem refuses_dispatch_iff {root : Bool} {kill : Int32 → Bool} {programs : List ProgramGroup}
    {requests : Requests} (hhelp : requests.help = false) (hkill : requests.killId = none)
    (hrange : requests.rangeToken = some token) :
    Refuses (dispatch root kill programs requests) ↔ Rejected token := by
  have hdispatch : dispatch root kill programs requests =
      (parseListingRange token ⟨0, 0⟩ >>= fun parsed ↦ if !parsed.1 then
        return failure ("[!!] invalid range '".toList ++ token ++
          "', expected format START:END".toList) []
        else return listed (some parsed.2) programs) := by
    simp only [dispatch, hhelp, hkill, hrange, Bool.false_eq_true, if_false]
  rw [hdispatch]
  constructor
  · rintro ⟨outcome, hrun, -, hexit⟩
    obtain ⟨⟨valid, range⟩, hparse, houtcome⟩ := bind_eq_ok_iff.mp hrun
    cases valid with
    | false => exact ⟨range, hparse⟩
    | true =>
        cases houtcome
        simp [listed] at hexit
  · rintro ⟨range, hparse⟩
    rw [hparse]
    exact refuses_failure _

/-! ## The whole command -/

/-- Behind a scan with an error, or with the help, nothing is signalled. -/
theorem signalled_of_helpParsed {root : Bool} {kill : Int32 → Bool} {programs : List ProgramGroup}
    {arguments : List Text} (hhelp : HelpParsed arguments) :
    ∃ outcome, runProcessCommand root kill programs arguments = .ok outcome ∧
      outcome.signalled = [] := by
  obtain ⟨front, rest, options, rfl, hfront, hmem⟩ := hhelp
  unfold runProcessCommand
  rw [scanArguments_append hfront]
  cases hscan : scanArguments (options.foldl Requests.apply ⟨false, none, none⟩) rest with
  | error message => exact ⟨_, rfl, rfl⟩
  | ok requests =>
      have hrequested := help_of_scanArguments hscan ((help_requestsOf options).mpr hmem)
      simp only [dispatch, hrequested, if_true]
      exact ⟨_, rfl, rfl⟩

theorem refuses_of_not_commandLine {root : Bool} {kill : Int32 → Bool}
    {programs : List ProgramGroup} {arguments : List Text}
    (hnone : ¬ ∃ options, CommandLine arguments options) :
    Refuses (runProcessCommand root kill programs arguments) := by
  unfold runProcessCommand
  cases hscan : scanArguments ⟨false, none, none⟩ arguments with
  | error message => exact refuses_failure message
  | ok requests => exact absurd (commandLine_of_scanArguments hscan) hnone

theorem runProcessCommand_of_commandLine {root : Bool} {kill : Int32 → Bool}
    {programs : List ProgramGroup} {arguments : List Text} {options : List CommandOption}
    (h : CommandLine arguments options) :
    runProcessCommand root kill programs arguments =
      dispatch root kill programs (requestsOf options) := by
  rw [runProcessCommand, scanArguments_of_commandLine h]
  rfl

/-- Behind a rejected range the command refuses to do anything if and only if
it stops there. -/
theorem refuses_of_rejected_iff {root : Bool} {kill : Int32 → Bool}
    {programs : List ProgramGroup} {arguments : List Text} {options : List CommandOption}
    (h : CommandLine arguments options) (hhelp : .help ∉ options)
    (hrange : .range token ∈ options) :
    Refuses (runProcessCommand root kill programs arguments) ↔
      StopsAtRange root programs options := by
  have hnohelp : (requestsOf options).help = false := by
    rw [Bool.eq_false_iff]
    exact fun hrequested ↦ hhelp ((help_requestsOf options).mp hrequested)
  rw [runProcessCommand_of_commandLine h, StopsAtRange, ← killId_requestsOf,
    ← rangeToken_requestsOf]
  cases hkill : (requestsOf options).killId with
  | some killId =>
      have hdispatch : dispatch root kill programs (requestsOf options) =
          runProcessKillCommand root kill programs killId := by
        simp only [dispatch, hnohelp, hkill, Bool.false_eq_true, if_false]
      rw [hdispatch, refuses_runProcessKillCommand_iff]
  | none =>
      have hsome : (requestsOf options).rangeToken ≠ none := by
        rw [rangeToken_requestsOf, ne_eq, List.getLast?_eq_none_iff]
        exact List.ne_nil_of_mem (List.mem_filterMap.mpr ⟨.range token, hrange, rfl⟩)
      obtain ⟨last, hlast⟩ := Option.ne_none_iff_exists'.mp hsome
      rw [refuses_dispatch_iff hnohelp hkill hlast, hlast]
      simp

/-- With the help among the options nothing is signalled.  A malformed command
line signals nothing and gives the exit code 1, or has the help, if and only if
no rejected range is passed over: one is when an id is given as well that
denotes something or does not fit, or when the last range is not rejected. -/
theorem malformed_refused_iff (root : Bool) (kill : Int32 → Bool) (programs : List ProgramGroup)
    (arguments : List Text) :
    (HelpParsed arguments → ∀ outcome,
        runProcessCommand root kill programs arguments = .ok outcome → outcome.signalled = []) ∧
      ((Malformed arguments → ∃ outcome,
          runProcessCommand root kill programs arguments = .ok outcome ∧ outcome.signalled = [] ∧
            (¬ HelpParsed arguments → outcome.exitCode = 1)) ↔
        ∀ options token, CommandLine arguments options → .range token ∈ options →
          Rejected token → .help ∉ options → StopsAtRange root programs options) := by
  constructor
  · intro hhelp outcome hrun
    obtain ⟨outcome', hrun', hsignalled⟩ := signalled_of_helpParsed hhelp
    rw [hrun] at hrun'
    cases hrun'
    exact hsignalled
  constructor
  · intro hrefused options token h hrange hrejected hhelp
    obtain ⟨outcome, hrun, hsignalled, hexit⟩ :=
      hrefused (Or.inr ⟨options, token, h, hrange, hrejected⟩)
    have hnothelp : ¬ HelpParsed arguments := fun hparsed ↦
      hhelp (help_mem_of_helpParsed h hparsed)
    exact (refuses_of_rejected_iff h hhelp hrange).mp ⟨outcome, hrun, hsignalled, hexit hnothelp⟩
  · intro hstops hmalformed
    by_cases hhelp : HelpParsed arguments
    · obtain ⟨outcome, hrun, hsignalled⟩ := signalled_of_helpParsed hhelp
      exact ⟨outcome, hrun, hsignalled, fun hnot ↦ absurd hhelp hnot⟩
    have hrefuses : Refuses (runProcessCommand root kill programs arguments) := by
      rcases hmalformed with hnone | ⟨options, token, h, hrange, hrejected⟩
      · exact refuses_of_not_commandLine hnone
      · have hnothelp : .help ∉ options := fun hmem ↦
          hhelp ⟨arguments, [], options, (List.append_nil _).symm, h, hmem⟩
        exact (refuses_of_rejected_iff h hnothelp hrange).mpr
          (hstops options token h hrange hrejected hnothelp)
    obtain ⟨outcome, hrun, hsignalled, hexit⟩ := hrefuses
    exact ⟨outcome, hrun, hsignalled, fun _ ↦ hexit⟩

/-- `-r x -k 0`. -/
def rejectedThenKill : List Text := [rangeShort, ['x'], killShort, ['0']]

def soleProgram : List ProgramGroup := [⟨['a'], 0, [⟨7, ['a'], 0⟩]⟩]

theorem not_malformed_refused_rejectedThenKill :
    Malformed rejectedThenKill ∧ ¬ HelpParsed rejectedThenKill ∧
      ∃ outcome, runProcessCommand true (fun _ ↦ true) soleProgram rejectedThenKill =
        .ok outcome ∧ outcome.signalled = [7] ∧ outcome.exitCode = 0 := by
  have h : CommandLine rejectedThenKill [.range ['x'], .kill ['0']] :=
    .range (Or.inl rfl) (.kill (Or.inl rfl) .nil)
  refine ⟨Or.inr ⟨_, ['x'], h, by simp, ⟨0, 0⟩, rfl⟩, fun hparsed ↦ ?_, ?_⟩
  · have hmem := help_mem_of_helpParsed h hparsed
    simp at hmem
  · rw [runProcessCommand_of_commandLine h]
    exact ⟨_, rfl, rfl, rfl⟩

end BetterCpu.ProcessCommand
