import Upkeep.Proofs.CommandLine.Arguments
import Upkeep.Proofs.CommandLine.Failure
import Upkeep.Proofs.Tree.Flat

/-!
Runs that check.  What such a run tells and whether it succeeds follows from the report about its
files and from whether `--strict` is given, and it leaves the tree as it was.
-/

namespace Upkeep

/-- Whether `--strict` is among some arguments, before a `--` that makes files of all behind it. -/
def GivesStrict (arguments : List Text) : Prop :=
  "--strict".toList ∈ arguments.takeWhile (· != ['-', '-'])

instance (arguments : List Text) : Decidable (GivesStrict arguments) :=
  inferInstanceAs (Decidable (_ ∈ _))

theorem givesStrict_strict (rest : List Text) : GivesStrict ("--strict".toList :: rest) := by
  rw [GivesStrict, List.takeWhile_cons_of_pos (by decide)]
  exact List.mem_cons_self

theorem not_givesStrict_separator (rest : List Text) : ¬ GivesStrict (['-', '-'] :: rest) := by
  rw [GivesStrict, List.takeWhile_cons_of_neg (by decide)]
  exact List.not_mem_nil

namespace Argument

theorem eq_separator_of_ofText
    {argument : Text}
    (read : ofText argument = .separator) :
    argument = ['-', '-'] := by
  unfold ofText at read
  split at read
  · rfl
  all_goals simp at read

theorem exists_bare_of_ofText_eq_long
    {argument name : Text} {value : Option Text}
    (read : ofText argument = .long name value) :
    ∃ bare, name = ['-', '-'] ++ bare := by
  unfold ofText at read
  split at read
  · simp at read
  · exact ⟨_, (Argument.long.inj read).1.symm⟩
  · simp at read
  · simp at read

theorem ofText_strict : ofText "--strict".toList = .long "--strict".toList none := by
  decide

end Argument

theorem givesStrict_cons_of_plain
    {argument word : Text}
    (look : Argument.ofText argument = .plain word) (rest : List Text) :
    GivesStrict (argument :: rest) ↔ GivesStrict rest := by
  have notSeparator : argument ≠ ['-', '-'] := by
    rintro rfl
    simp [Argument.ofText] at look
  have notStrict : argument ≠ "--strict".toList := by
    rintro rfl
    rw [Argument.ofText_strict] at look
    cases look
  rw [GivesStrict, List.takeWhile_cons_of_pos (by simpa using notSeparator), List.mem_cons,
    or_iff_right (Ne.symm notStrict), GivesStrict]

namespace Task

variable {program : String} {task done : Task} {hasSettled : Bool} {arguments : List Text}

theorem isStrict_of_checked
    (checked : task.checked.map Request.work = .ok (.work done)) :
    done.isStrict = task.isStrict := by
  unfold Task.checked at checked
  split at checked
  · simp [Except.map] at checked
  · obtain rfl := Request.work.inj (Except.ok.inj checked)
    rfl

theorem eq_strict_of_mem_flags
    {pass : Pass} {name : Text}
    (known : String.ofList (name.drop 2) ∈ pass.flags)
    (noHelp : String.ofList (name.drop 2) ≠ "help") :
    name.drop 2 = "strict".toList := by
  have strict : String.ofList (name.drop 2) = "strict" := by
    unfold Pass.flags at known
    split at known
    · simpa [noHelp] using known
    · simp [noHelp] at known
  rw [← String.toList_ofList (l := name.drop 2), strict]

/-- A task that is read is strict if it was before or `--strict` is given. -/
theorem isStrict_of_read
    (read : Task.read program task hasSettled arguments = .ok (.work done)) :
    done.isStrict = true ↔ task.isStrict = true ∨ GivesStrict arguments := by
  induction arguments generalizing task hasSettled with
  | nil =>
      rw [isStrict_of_checked read]
      simp [GivesStrict]
  | cons argument rest inductionHypothesis =>
      rw [Task.read] at read
      cases look : Argument.ofText argument with
      | plain file =>
          simp only [look] at read
          rw [givesStrict_cons_of_plain look]
          have further := inductionHypothesis read
          exact further
      | separator =>
          simp only [look] at read
          obtain rfl := Argument.eq_separator_of_ofText look
          rw [isStrict_of_checked read]
          simp [not_givesStrict_separator]
      | short letter attached =>
          simp only [look] at read
          split at read
          · cases checked : task.checked <;> simp [checked, Except.map] at read
          · simp at read
      | long name value =>
          simp only [look] at read
          split at read
          · simp at read
          next known =>
            cases value with
            | some value => simp at read
            | none =>
                simp only at read
                cases checked : task.checked with
                | error error => simp [checked] at read
                | ok settled =>
                    simp only [checked] at read
                    split at read
                    · simp at read
                    next noHelp =>
                      split at read
                      · simp at read
                      · have strict := eq_strict_of_mem_flags (by simpa using known) noHelp
                        obtain ⟨bare, rfl⟩ := Argument.exists_bare_of_ofText_eq_long look
                        have written := Argument.eq_append_of_ofText_eq_long look
                        rw [valueText, List.append_nil] at written
                        have isBare : bare = "strict".toList := strict
                        rw [inductionHypothesis read, written, isBare]
                        exact iff_of_true (.inl rfl) (.inr (givesStrict_strict rest))

end Task

/-- A task is strict exactly if `--strict` is among the arguments for the pass. -/
theorem Request.isStrict_iff
    {program : String} {arguments : List Text} {task : Task}
    (asks : Request.read program arguments = .ok (.work task)) :
    task.isStrict = true ↔ GivesStrict arguments := by
  cases arguments with
  | nil => simp [Request.read] at asks
  | cons argument rest =>
      unfold Request.read at asks
      cases look : Argument.ofText argument with
      | plain word =>
          simp only [look] at asks
          cases named : Pass.ofName? word with
          | none => simp [named] at asks
          | some pass =>
              simp only [named] at asks
              rw [givesStrict_cons_of_plain look, Task.isStrict_of_read asks]
              simp
      | separator =>
          simp only [look] at asks
          split at asks
          · simp at asks
          · split at asks <;> simp at asks
      | short letter attached =>
          simp only [look] at asks
          split at asks
          · simp at asks
          · split at asks <;> simp at asks
      | long name value =>
          simp only [look] at asks
          split at asks
          · simp at asks
          · split at asks <;> simp at asks

section

variable {check : Check} {tree : Tree} {task : Task} {config : Config} {environment : Environment}
  {arguments : List Text} {filter : LogFilter} {logIsOpen : Bool}

theorem work_eq_check
    (isCheck : config.check? task.pass = some check) (launch : Launcher) (tree : Tree) :
    task.work launch config tree = task.check check config tree := by
  unfold Task.work
  unfold Config.check? at isCheck
  cases pass : task.pass <;> simp_all

/-- A run that checks tells the report about its files, or the error that ends it, and leaves the
tree as it was. -/
theorem runProgram_of_check
    (starts : Starts environment arguments tree task config)
    (isCheck : config.check? task.pass = some check)
    (opened : openFilter logIsOpen config = .ok filter) (launch : Launcher) :
    let ending := runProgram launch logIsOpen environment arguments tree
    ending.tree = tree ∧
      match (check.survey tree (task.targets config tree)).report with
      | .error error =>
          ending.output = [] ∧ ending.messages = error.message.toList ++ ['\n'] ∧
            ending.succeeded = false
      | .ok report =>
          ending.output = Ending.textOf report.transcript ∧ ending.messages = [] ∧
            ending.succeeded = (!task.isStrict || report.isClean) := by
  dsimp only
  rw [starts.runProgram_eq, opened]
  dsimp only
  rw [work_eq_check isCheck, Task.check]
  cases (check.survey tree (task.targets config tree)).report with
  | error error => exact ⟨rfl, rfl, rfl, rfl⟩
  | ok report => exact ⟨rfl, rfl, rfl, rfl⟩

end

/-- A check over listed files sums up what it finds in each of them, in the order of the list.  It
fails exactly if an entry is an error other than a missing project or names a file that cannot be
read, with the error of the first such entry, and missing projects make no difference.

A run that checks leaves the tree as it was.  It fails with the message of such an error and nothing
else on its output; otherwise it tells one line for each warning and their number, and fails exactly
if `--strict` is given and there is a warning. -/
theorem check_sums_up_files (check : Check) (tree : Tree) (listed : List Listed) :
    (∀ error, (check.survey tree listed).report = .error error ↔
      ∃ front item back, listed = front ++ item :: back ∧
        blockage? tree item = some error ∧ ∀ before ∈ front, blockage? tree before = none) ∧
    (∀ report, (check.survey tree listed).report = .ok report ↔
      (∀ item ∈ listed, blockage? tree item = none) ∧
        ∃ files : List SourceFile, (pathsOf listed).map (SourceFile.read tree) = files.map .ok ∧
          report = ⟨files.flatMap (check.warnings tree), listed.countP Except.isOk⟩) ∧
    (∀ others, withoutMissing others = withoutMissing listed →
      (check.survey tree others).report = (check.survey tree listed).report) ∧
    ∀ environment arguments task config filter logIsOpen launch,
      Starts environment arguments tree task config →
      config.check? task.pass = some check →
      openFilter logIsOpen config = .ok filter →
      task.targets config tree = listed →
      let ending := runProgram launch logIsOpen environment arguments tree
      ending.tree = tree ∧
        match (check.survey tree listed).report with
        | .error error =>
            ending.output = [] ∧ ending.messages = error.message.toList ++ ['\n'] ∧
              ending.succeeded = false
        | .ok report =>
            ending.output = Ending.textOf (report.warnings.map Warning.display ++
              [s!"{report.warnings.length} warning(s)".toList]) ∧
            ending.messages = [] ∧
            (ending.succeeded = false ↔
              GivesStrict (splitArguments arguments).2 ∧ 0 < report.warnings.length) := by
  refine ⟨fun error => Check.report_eq_error_iff, fun report => Check.report_eq_ok_iff,
    fun others => Check.report_eq_of_withoutMissing, ?_⟩
  intro environment arguments task config filter logIsOpen launch starts isCheck opened targets
  obtain ⟨sameTree, told⟩ := runProgram_of_check starts isCheck opened launch
  rw [targets] at told
  refine ⟨sameTree, ?_⟩
  cases found : (check.survey tree listed).report with
  | error error =>
      rw [found] at told
      exact told
  | ok report =>
      rw [found] at told
      obtain ⟨output, messages, succeeded⟩ := told
      refine ⟨output, messages, ?_⟩
      rw [succeeded, ← Request.isStrict_iff starts.asks, Bool.or_eq_false_iff,
        CheckReport.isClean, List.length_pos_iff]
      simp

/-- The arguments for a strict check of one file. -/
def strictArguments : List Text :=
  ["mender", "check-license", "--strict", "a.cpp"].map String.toList

theorem check_sums_up_files_of_strictArguments :
    let ending := runProgram (launch launchDepth) false [] strictArguments includingTree
    ending.tree = includingTree ∧
      ending.output = "a.cpp: missing license header\n1 warning(s)\n".toList ∧
      ending.succeeded = false := by
  have starts : Starts [] strictArguments includingTree
      ⟨.checkLicense, true, ["a.cpp".toList]⟩ Config.default := ⟨by decide +kernel, rfl⟩
  have opened : ∃ filter, openFilter false Config.default = .ok filter := ⟨_, rfl⟩
  obtain ⟨filter, opened⟩ := opened
  obtain ⟨_, sum, _, run⟩ := check_sums_up_files (checkLicense Config.default.licenseMarker)
    includingTree [.ok ⟨[], "a.cpp".toList⟩]
  have report : ((checkLicense Config.default.licenseMarker).survey includingTree
      [.ok ⟨[], "a.cpp".toList⟩]).report =
        .ok ⟨[⟨"a.cpp".toList, none, .missingLicense, "missing license header".toList⟩], 1⟩ := by
    refine (sum _).2 ⟨?_, [⟨"a.cpp".toList, "#include <x>\nint a;\n".toList⟩], ?_, ?_⟩
    · intro item member
      rw [List.mem_singleton.1 member, blockage?, read_includingTree]
    · exact congrArg (· :: []) read_includingTree
    · decide +kernel
  obtain ⟨sameTree, told⟩ :=
    run [] strictArguments _ _ filter false (launch launchDepth) starts rfl opened rfl
  rw [report] at told
  obtain ⟨output, _, failed⟩ := told
  refine ⟨sameTree, output.trans ?_, failed.2 ⟨by decide +kernel, by decide⟩⟩
  decide +kernel

end Upkeep
