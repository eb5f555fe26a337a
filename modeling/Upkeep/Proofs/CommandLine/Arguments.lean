import Upkeep.CommandLine.Arguments

/-!
The flags for settings in front of a pass.  They are a run of flags, each with its value behind an
equals sign or as the next argument, and what follows the first argument that is neither never
reaches the settings.
-/

namespace Upkeep

/-- What is written behind the name of a flag for a value of its own. -/
def valueText : Option Text → Text
  | none => []
  | some value => '=' :: value

theorem splitEquals_append
    {name : Text}
    (plain : '=' ∉ name) (value : Option Text) :
    splitEquals (name ++ valueText value) = (name, value) := by
  have others : ∀ c ∈ name, (c != '=') = true := by
    intro c member
    rw [bne_iff_ne]
    rintro rfl
    exact plain member
  rw [splitEquals, List.takeWhile_append_of_pos others, List.dropWhile_append_of_pos others]
  cases value <;> simp [valueText]

theorem eq_append_splitEquals (text : Text) :
    text = (splitEquals text).1 ++ valueText (splitEquals text).2 := by
  have whole := List.takeWhile_append_dropWhile (p := (· != '=')) (l := text)
  have first := List.head?_dropWhile_not (· != '=') text
  rw [splitEquals]
  cases behind : text.dropWhile (· != '=') with
  | nil =>
      rw [behind] at whole
      exact whole.symm
  | cons c rest =>
      rw [behind] at whole first
      have equals : c = '=' := by simpa using first
      rw [equals] at whole
      exact whole.symm

namespace Argument

theorem ofText_dashes
    {bare : Text}
    (something : bare ≠ []) :
    ofText ('-' :: '-' :: bare) =
      .long (['-', '-'] ++ (splitEquals bare).1) (splitEquals bare).2 := by
  cases bare with
  | nil => exact absurd rfl something
  | cons c rest => rfl

theorem eq_append_of_ofText_eq_long
    {argument name : Text} {value : Option Text}
    (read : ofText argument = .long name value) :
    argument = name ++ valueText value := by
  unfold ofText at read
  split at read
  · simp at read
  next rest _ =>
    obtain ⟨rfl, rfl⟩ := Argument.long.inj read
    exact congrArg (['-', '-'] ++ ·) (eq_append_splitEquals rest)
  · simp at read
  · simp at read

end Argument

namespace Flag

theorem exists_long_of_mem
    {flag : Flag}
    (known : flag ∈ all) :
    ∃ bare, bare ≠ [] ∧ '=' ∉ bare ∧ flag.long = '-' :: '-' :: bare := by
  have plain : ∀ flag ∈ all, flag.long.drop 2 ≠ [] ∧ '=' ∉ flag.long.drop 2 := by decide
  obtain ⟨something, noEquals⟩ := plain flag known
  exact ⟨flag.long.drop 2, something, noEquals, rfl⟩

theorem isSome_ofLong?_iff {name : Text} :
    (ofLong? name).isSome = true ↔ ∃ flag ∈ all, flag.long = name := by
  simp [ofLong?, List.find?_isSome]

end Flag

/-- Whether an argument is a flag for a setting, with or without a value of its own. -/
def NamesSetting (argument : Text) : Prop :=
  ∃ flag ∈ Flag.all, ∃ value, argument = flag.long ++ valueText value

/-- Whether the first of some arguments is a flag for a setting. -/
def StartsWithSetting (arguments : List Text) : Prop :=
  ∃ argument ∈ arguments.head?, NamesSetting argument

/-- Whether arguments are flags for settings, each with its value: behind an equals sign, or as the
next argument, whatever that is. -/
inductive FlagTokens : List Text → Prop where
  | nil : FlagTokens []
  | inline {flag value rest} :
      flag ∈ Flag.all →
      FlagTokens rest →
      FlagTokens ((flag.long ++ '=' :: value) :: rest)
  | spaced {flag value rest} :
      flag ∈ Flag.all →
      FlagTokens rest →
      FlagTokens (flag.long :: value :: rest)

/-- How arguments are taken from others: as flags with their values, up to an argument that is no
flag for a setting, or up to a flag at the very end that lacks its value. -/
inductive TakesFlags : List Text → List Text → Prop where
  | complete {taken others} :
      FlagTokens taken →
      ¬ StartsWithSetting others →
      TakesFlags taken others
  | dangling {front flag} :
      FlagTokens front →
      flag ∈ Flag.all →
      TakesFlags (front ++ [flag.long]) []

variable {argument program : Text} {flags front others : List Text} {flag : Flag}

theorem awaitsValue?_long_append
    (known : flag ∈ Flag.all) (value : Option Text) :
    awaitsValue? (flag.long ++ valueText value) = some value.isNone := by
  obtain ⟨bare, something, plain, written⟩ := Flag.exists_long_of_mem known
  have found : (Flag.ofLong? (['-', '-'] ++ bare)).isSome = true :=
    Flag.isSome_ofLong?_iff.2 ⟨flag, known, written⟩
  obtain ⟨other, isOther⟩ := Option.isSome_iff_exists.1 found
  rw [awaitsValue?, written, List.cons_append, List.cons_append,
    Argument.ofText_dashes (by simp [something]), splitEquals_append plain]
  simp only [isOther, Option.map_some]

theorem awaitsValue?_long
    (known : flag ∈ Flag.all) :
    awaitsValue? flag.long = some true := by
  simpa [valueText] using awaitsValue?_long_append known none

theorem exists_flag_of_awaitsValue?
    {awaits : Bool}
    (read : awaitsValue? argument = some awaits) :
    ∃ flag ∈ Flag.all, ∃ value : Option Text,
      argument = flag.long ++ valueText value ∧ value.isNone = awaits := by
  unfold awaitsValue? at read
  split at read
  next name value long =>
    obtain ⟨_, found, awaits⟩ := Option.map_eq_some_iff.1 read
    obtain ⟨flag, known, rfl⟩ := Flag.isSome_ofLong?_iff.1 (Option.isSome_of_eq_some found)
    exact ⟨flag, known, value, Argument.eq_append_of_ofText_eq_long long, awaits⟩
  · simp at read

theorem namesSetting_iff : NamesSetting argument ↔ awaitsValue? argument ≠ none := by
  rw [Option.ne_none_iff_exists']
  constructor
  · rintro ⟨flag, known, value, rfl⟩
    exact ⟨value.isNone, awaitsValue?_long_append known value⟩
  · rintro ⟨awaits, read⟩
    obtain ⟨flag, known, value, written, _⟩ := exists_flag_of_awaitsValue? read
    exact ⟨flag, known, value, written⟩

instance (argument : Text) : Decidable (NamesSetting argument) :=
  decidable_of_iff _ namesSetting_iff.symm

instance (arguments : List Text) : Decidable (StartsWithSetting arguments) :=
  match arguments with
  | [] => isFalse (by simp [StartsWithSetting])
  | argument :: _ => decidable_of_iff (NamesSetting argument) (by simp [StartsWithSetting])

theorem fst_append_snd_splitFlags (arguments : List Text) :
    (splitFlags arguments).1 ++ (splitFlags arguments).2 = arguments := by
  fun_induction splitFlags arguments <;> simp_all

theorem splitFlags_inline
    (known : flag ∈ Flag.all) (value : Text) (rest : List Text) :
    splitFlags ((flag.long ++ '=' :: value) :: rest) =
      ((flag.long ++ '=' :: value) :: (splitFlags rest).1, (splitFlags rest).2) := by
  have read : awaitsValue? (flag.long ++ '=' :: value) = some false :=
    awaitsValue?_long_append known (some value)
  cases rest <;> simp [splitFlags, read]

theorem splitFlags_spaced
    (known : flag ∈ Flag.all) (value : Text) (rest : List Text) :
    splitFlags (flag.long :: value :: rest) =
      (flag.long :: value :: (splitFlags rest).1, (splitFlags rest).2) := by
  simp [splitFlags, awaitsValue?_long known]

theorem splitFlags_of_not_startsWithSetting
    (other : ¬ StartsWithSetting others) :
    splitFlags others = ([], others) := by
  cases others with
  | nil => rfl
  | cons argument rest =>
      have unread : awaitsValue? argument = none := by
        simpa [StartsWithSetting, namesSetting_iff] using other
      cases rest <;> simp [splitFlags, unread]

/-- Flags with their values are taken, and the reading goes on behind them. -/
theorem FlagTokens.splitFlags_append
    (tokens : FlagTokens front) (arguments : List Text) :
    splitFlags (front ++ arguments) =
      (front ++ (splitFlags arguments).1, (splitFlags arguments).2) := by
  induction tokens with
  | nil => rfl
  | @inline flag value rest known _ inductionHypothesis =>
      rw [List.cons_append, splitFlags_inline known, inductionHypothesis]
      rfl
  | @spaced flag value rest known _ inductionHypothesis =>
      rw [List.cons_append, List.cons_append, splitFlags_spaced known, inductionHypothesis]
      rfl

theorem TakesFlags.append
    (takes : TakesFlags flags others)
    (tokens : FlagTokens front) :
    TakesFlags (front ++ flags) others := by
  have appended : ∀ flags, FlagTokens flags → FlagTokens (front ++ flags) := by
    intro flags tokensToo
    induction tokens with
    | nil => exact tokensToo
    | inline known _ inductionHypothesis => exact .inline known inductionHypothesis
    | spaced known _ inductionHypothesis => exact .spaced known inductionHypothesis
  cases takes with
  | complete flagTokens other => exact .complete (appended _ flagTokens) other
  | dangling frontTokens known =>
      rw [← List.append_assoc]
      exact .dangling (appended _ frontTokens) known

theorem takesFlags_splitFlags (arguments : List Text) :
    TakesFlags (splitFlags arguments).1 (splitFlags arguments).2 := by
  have notSetting : ∀ {argument : Text} {rest : List Text}, awaitsValue? argument = none →
      ¬ StartsWithSetting (argument :: rest) := by
    intro argument rest unread
    simp [StartsWithSetting, namesSetting_iff, unread]
  fun_induction splitFlags arguments with
  | case1 => exact .complete .nil (by simp [StartsWithSetting])
  | case2 argument unread => exact .complete .nil (notSetting unread)
  | case3 argument awaits read =>
      obtain ⟨flag, known, value, rfl, _⟩ := exists_flag_of_awaitsValue? read
      cases value with
      | none =>
          rw [valueText, List.append_nil]
          exact .dangling .nil known
      | some value => exact .complete (.inline known .nil) (by simp [StartsWithSetting])
  | case4 argument next rest unread => exact .complete .nil (notSetting unread)
  | case5 argument next rest read flags others split inductionHypothesis =>
      obtain ⟨flag, known, value, rfl, withValue⟩ := exists_flag_of_awaitsValue? read
      cases value with
      | none => simp at withValue
      | some value =>
          rw [split] at inductionHypothesis
          exact inductionHypothesis.append (.inline known .nil)
  | case6 argument next rest read flags others split inductionHypothesis =>
      obtain ⟨flag, known, value, rfl, alone⟩ := exists_flag_of_awaitsValue? read
      cases value with
      | none =>
          rw [split] at inductionHypothesis
          rw [valueText, List.append_nil]
          exact inductionHypothesis.append (.spaced known .nil)
      | some value => simp at alone

/-- Arguments that were taken are all taken again. -/
theorem TakesFlags.splitFlags_self
    (takes : TakesFlags flags others) :
    splitFlags flags = (flags, []) := by
  cases takes with
  | complete tokens other => simpa [splitFlags] using tokens.splitFlags_append []
  | dangling tokens known =>
      rw [tokens.splitFlags_append]
      simp [splitFlags, awaitsValue?_long known]

/-- How far flags for settings are read: the arguments that are taken, how many they are, and
whether the last one awaits its value. -/
structure FlagScan where
  taken : List Text
  count : Nat
  awaits : Bool

namespace FlagScan

/-- Take the name of the program. -/
def start (program : Text) : FlagScan :=
  ⟨[program], 1, false⟩

/-- Take one more argument: the value that is awaited, or a flag. -/
def next? (scan : FlagScan) (argument : Text) : Option FlagScan :=
  if scan.awaits then some ⟨scan.taken ++ [argument], scan.count + 1, false⟩
  else
    (awaitsValue? argument).map fun awaits =>
      ⟨scan.taken ++ [argument], scan.count + 1, awaits⟩

/-- Take arguments until one is neither. -/
def run (scan : FlagScan) : List Text → FlagScan
  | [] => scan
  | argument :: rest =>
      match scan.next? argument with
      | none => scan
      | some scan => scan.run rest

/-- The arguments for the pass: the name of the program and those behind the ones that are
counted. -/
def passArguments (scan : FlagScan) (arguments : List Text) : List Text :=
  arguments.take 1 ++ arguments.drop scan.count

variable {scan : FlagScan}

theorem next?_of_awaits
    (awaits : scan.awaits = true) (argument : Text) :
    scan.next? argument = some ⟨scan.taken ++ [argument], scan.count + 1, false⟩ := by
  rw [next?, if_pos awaits]

theorem next?_of_settled
    (settled : scan.awaits = false) (argument : Text) :
    scan.next? argument = (awaitsValue? argument).map fun awaits =>
      ⟨scan.taken ++ [argument], scan.count + 1, awaits⟩ := by
  rw [next?, if_neg (by simp [settled])]

/-- A run takes what the split takes, and counts it. -/
theorem run_eq
    (settled : scan.awaits = false) (arguments : List Text) :
    (scan.run arguments).taken = scan.taken ++ (splitFlags arguments).1 ∧
      (scan.run arguments).count = scan.count + (splitFlags arguments).1.length := by
  fun_induction splitFlags arguments generalizing scan with
  | case1 => simp [run]
  | case2 argument unread => simp [run, next?_of_settled settled, unread]
  | case3 argument awaits read => simp [run, next?_of_settled settled, read]
  | case4 argument next rest unread => simp [run, next?_of_settled settled, unread]
  | case5 argument next rest read flags others split inductionHypothesis =>
      rw [split] at inductionHypothesis
      have settledThere :
          FlagScan.awaits ⟨scan.taken ++ [argument], scan.count + 1, false⟩ = false :=
        rfl
      obtain ⟨taken, count⟩ := inductionHypothesis settledThere
      rw [run, next?_of_settled settled, read, Option.map_some]
      refine ⟨taken.trans (by simp), count.trans ?_⟩
      simp only [List.length_cons]
      omega
  | case6 argument next rest read flags others split inductionHypothesis =>
      rw [split] at inductionHypothesis
      have settledThere :
          FlagScan.awaits ⟨scan.taken ++ [argument] ++ [next], scan.count + 1 + 1, false⟩ = false :=
        rfl
      obtain ⟨taken, count⟩ := inductionHypothesis settledThere
      rw [run, next?_of_settled settled, read, Option.map_some]
      simp only
      rw [run, next?_of_awaits rfl]
      refine ⟨taken.trans (by simp), count.trans ?_⟩
      simp only [List.length_cons]
      omega

end FlagScan

theorem splitArguments_cons (program : Text) (rest : List Text) :
    splitArguments (program :: rest) = (program :: (splitFlags rest).1, (splitFlags rest).2) :=
  rfl

/-- Arguments are split in two without a loss: into the name of the program with flags for settings
and their values, which are read one by one and counted, and the others, which the pass gets behind
the name of the program.  A flag lacks its value at the very end only, and the others start with no
flag for a setting.

What was taken is all taken again.  If no value is missing, whatever else comes behind it that does
not start with a flag for a setting is left to the pass, so that no flag behind the pass reaches the
settings. -/
theorem splitArguments_takes_leading_flags (program : Text) (rest : List Text) :
    let split := splitArguments (program :: rest)
    let scan := (FlagScan.start program).run rest
    program :: rest = split.1 ++ split.2 ∧
    (scan.taken = split.1 ∧ scan.count = split.1.length ∧
      scan.passArguments (program :: rest) = program :: split.2) ∧
    ∃ flags, split.1 = program :: flags ∧
      TakesFlags flags split.2 ∧
      splitArguments (program :: flags) = (program :: flags, []) ∧
      (FlagTokens flags → ∀ others, ¬ StartsWithSetting others →
        splitArguments (program :: flags ++ others) = (program :: flags, others)) := by
  dsimp only
  have takes := takesFlags_splitFlags rest
  have whole := fst_append_snd_splitFlags rest
  have settled : (FlagScan.start program).awaits = false := rfl
  obtain ⟨taken, count⟩ := FlagScan.run_eq settled rest
  have length : ((FlagScan.start program).run rest).count = (splitFlags rest).1.length + 1 := by
    rw [count, FlagScan.start, Nat.add_comm]
  rw [splitArguments_cons]
  refine ⟨?_, ⟨taken, length, ?_⟩, (splitFlags rest).1, rfl, takes, ?_, ?_⟩
  · rw [List.cons_append, whole]
  · rw [FlagScan.passArguments, length, List.drop_succ_cons]
    have behind : ((splitFlags rest).1 ++ (splitFlags rest).2).drop (splitFlags rest).1.length =
        (splitFlags rest).2 :=
      List.drop_left
    rw [whole] at behind
    rw [behind]
    rfl
  · rw [splitArguments_cons, takes.splitFlags_self]
  · intro tokens others other
    rw [List.cons_append, splitArguments_cons, tokens.splitFlags_append,
      splitFlags_of_not_startsWithSetting other, List.append_nil]

/-- A flag whose value looks like a pass, a flag with its own value, and a pass with a flag behind
it. -/
def flaggedArguments : List Text :=
  ["--base-dir", "constify", "--roots=p", "constify", "--base-dir", "x"].map String.toList

theorem splitArguments_takes_leading_flags_of_flaggedArguments :
    FlagTokens ["--base-dir".toList, "constify".toList, "--roots=p".toList] ∧
      ¬ StartsWithSetting ["normalize".toList, "--roots".toList] ∧
      splitArguments ("mender".toList ::
          ["--base-dir".toList, "constify".toList, "--roots=p".toList] ++
            ["normalize".toList, "--roots".toList]) =
        (["mender".toList, "--base-dir".toList, "constify".toList, "--roots=p".toList],
          ["normalize".toList, "--roots".toList]) := by
  have tokens : FlagTokens ["--base-dir".toList, "constify".toList, "--roots=p".toList] :=
    @FlagTokens.spaced ⟨"base_dir", some 'b', false⟩ _ _ (by decide)
      (@FlagTokens.inline ⟨"roots", some 'r', true⟩ ['p'] _ (by decide) .nil)
  have other : ¬ StartsWithSetting ["normalize".toList, "--roots".toList] := by decide +kernel
  obtain ⟨_, _, flags, taken, _, _, replaced⟩ :=
    splitArguments_takes_leading_flags "mender".toList flaggedArguments
  have same : ["--base-dir".toList, "constify".toList, "--roots=p".toList] = flags := by
    rw [splitArguments_cons] at taken
    exact (by decide +kernel : _ = (splitFlags flaggedArguments).1).trans (List.cons.inj taken).2
  subst same
  exact ⟨tokens, other, replaced tokens _ other⟩

end Upkeep
