import Upkeep.Path.Basic

/-!
Routes and the paths they are written as.  A route whose names are names is read
back from its path, so the normal form of a path has the folded steps of the path
and nothing else.
-/

namespace Upkeep

/-- Whether a part between slashes names an entry of a folder. -/
def IsName (part : Text) : Prop :=
  part ≠ [] ∧ part ≠ ['.'] ∧ part ≠ ['.', '.'] ∧ '/' ∉ part

instance (part : Text) : Decidable (IsName part) :=
  inferInstanceAs (Decidable (_ ∧ _ ∧ _ ∧ _))

namespace Step

/-- Whether a step goes up or to a proper name. -/
def Proper : Step → Prop
  | .up => True
  | .name text => IsName text

theorem Proper.slash_notMem
    {step : Step}
    (proper : step.Proper) :
    '/' ∉ step.text := by
  cases step with
  | up => decide
  | name text => exact proper.2.2.2

theorem Proper.text_ne_nil
    {step : Step}
    (proper : step.Proper) :
    step.text ≠ [] := by
  cases step with
  | up => decide
  | name text => exact proper.1

theorem Proper.stepOf?_text
    {step : Step}
    (proper : step.Proper) :
    Path.stepOf? step.text = some step := by
  cases step with
  | up => rfl
  | name text =>
      obtain ⟨nonempty, notDot, notUp, _⟩ := proper
      simp [Path.stepOf?, Step.text, nonempty, notDot, notUp]

end Step

theorem separator_notMem_of_mem_splitOn
    {text part : Text} {separator : Char}
    (member : part ∈ text.splitOn separator) :
    separator ∉ part := by
  induction text generalizing part with
  | nil =>
      rw [List.splitOn_nil, List.mem_singleton] at member
      simp [member]
  | cons c rest inductionHypothesis =>
      rw [List.splitOn_cons_eq_if_modifyHead] at member
      split at member
      next same =>
        rcases List.mem_cons.1 member with first | later
        · simp [first]
        · exact inductionHypothesis later
      next different =>
        cases pieces : rest.splitOn separator with
        | nil => exact absurd pieces (List.splitOn_ne_nil _ _)
        | cons piece others =>
            rw [pieces] at member inductionHypothesis
            rcases List.mem_cons.1 member with first | later
            · subst first
              rw [List.mem_cons, not_or]
              refine ⟨?_, inductionHypothesis List.mem_cons_self⟩
              intro same
              exact different (by simp [same])
            · exact inductionHypothesis (List.mem_cons_of_mem _ later)

theorem Path.proper_of_stepOf?
    {part : Text} {step : Step}
    (noSlash : '/' ∉ part)
    (read : stepOf? part = some step) :
    step.Proper ∧ step.text = part := by
  unfold stepOf? at read
  split at read
  · simp at read
  next something =>
    rw [not_or] at something
    split at read
    next up =>
      cases read
      exact ⟨trivial, up.symm⟩
    next notUp =>
      cases read
      exact ⟨⟨something.1, something.2, notUp, noSlash⟩, rfl⟩

namespace Route

/-- Whether all steps of a route are proper. -/
def Proper (route : Route) : Prop :=
  ∀ step ∈ route.steps, step.Proper

/-- The parts between the slashes of a written route. -/
def parts (route : Route) : List Text :=
  match route.absolute, route.steps with
  | true, [] => [[], []]
  | true, steps => [] :: steps.map Step.text
  | false, [] => [['.']]
  | false, steps => steps.map Step.text

theorem isAbsolute_path
    {route : Route}
    (proper : route.Proper) :
    Path.isAbsolute route.path = route.absolute := by
  obtain ⟨absolute, steps⟩ := route
  cases absolute with
  | true => simp [path, Path.isAbsolute]
  | false =>
      cases steps with
      | nil => decide
      | cons step steps =>
          have stepProper := proper step List.mem_cons_self
          cases text : step.text with
          | nil => exact absurd text stepProper.text_ne_nil
          | cons c rest =>
              have noSlash := stepProper.slash_notMem
              rw [text, List.mem_cons, not_or] at noSlash
              cases steps <;>
                simp [path, Path.isAbsolute, List.intercalate, text, Ne.symm noSlash.1]

theorem splitOn_path
    {route : Route}
    (proper : route.Proper) :
    route.path.splitOn '/' = route.parts := by
  obtain ⟨absolute, steps⟩ := route
  have noSlash : ∀ text ∈ steps.map Step.text, '/' ∉ text := by
    intro text member
    obtain ⟨step, inside, rfl⟩ := List.mem_map.1 member
    exact (proper step inside).slash_notMem
  cases steps with
  | nil => cases absolute <;> rfl
  | cons step steps =>
      have written := List.splitOn_intercalate '/' noSlash (by simp)
      cases absolute with
      | true =>
          simp only [path, if_true]
          rw [List.splitOn_cons_eq_if_modifyHead, if_pos (by decide), written]
          rfl
      | false => simpa [path, parts] using written

theorem path_ne_nil
    {route : Route}
    (proper : route.Proper) :
    route.path ≠ [] := by
  intro empty
  have split := splitOn_path proper
  rw [empty, List.splitOn_nil] at split
  obtain ⟨absolute, steps⟩ := route
  cases steps with
  | nil => cases absolute <;> simp [parts] at split
  | cons step steps =>
      have nonempty := (proper step List.mem_cons_self).text_ne_nil
      cases absolute with
      | true => simp [parts] at split
      | false =>
          simp only [parts, List.map_cons, List.cons.injEq] at split
          exact nonempty split.1.symm

theorem filterMap_stepOf?_text
    {steps : List Step}
    (proper : ∀ step ∈ steps, step.Proper) :
    (steps.map Step.text).filterMap Path.stepOf? = steps := by
  induction steps with
  | nil => rfl
  | cons step steps inductionHypothesis =>
      rw [List.map_cons,
        List.filterMap_cons_some (proper step List.mem_cons_self).stepOf?_text,
        inductionHypothesis fun other member => proper other (List.mem_cons_of_mem _ member)]

theorem filterMap_stepOf?_parts
    {route : Route}
    (proper : route.Proper) :
    route.parts.filterMap Path.stepOf? = route.steps := by
  obtain ⟨absolute, steps⟩ := route
  cases steps with
  | nil => cases absolute <;> rfl
  | cons step steps =>
      cases absolute with
      | true =>
          rw [parts, List.filterMap_cons_none (by rfl)]
          exact filterMap_stepOf?_text proper
      | false => exact filterMap_stepOf?_text proper

/-- A route of proper steps is read back from its path. -/
theorem route_path
    {route : Route}
    (proper : route.Proper) :
    Path.route route.path = route := by
  rw [Path.route, isAbsolute_path proper, splitOn_path proper, filterMap_stepOf?_parts proper]

/-- The folder of a path that ends in a name is written from the steps before the name. -/
theorem folder_eq
    {path : Text} {absolute : Bool} {steps : List Step} {name : Text}
    (proper : Proper ⟨absolute, steps⟩)
    (read : Path.route path = ⟨absolute, steps ++ [.name name]⟩) :
    Path.folder path = Route.path ⟨absolute, steps⟩ := by
  unfold Path.folder Path.parent?
  rw [read]
  cases steps with
  | nil =>
      cases absolute with
      | true => rfl
      | false =>
          simp only [List.nil_append]
          split
          next c rest same =>
            split at same
            · rw [← Option.some.inj same]
              rfl
            · simp at same
          · rfl
  | cons first rest =>
      have more : ∃ second others, rest ++ [Step.name name] = second :: others := by
        cases rest <;> simp
      obtain ⟨second, others, same⟩ := more
      have front : (first :: second :: others).dropLast = first :: rest := by
        rw [← same, ← List.cons_append, List.dropLast_concat]
      simp only [List.cons_append, same, front]
      cases written : Route.path ⟨absolute, first :: rest⟩ with
      | nil => exact absurd written (path_ne_nil proper)
      | cons c rest => rfl

theorem folder_path
    {absolute : Bool} {steps : List Step} {name : Text}
    (proper : Proper ⟨absolute, steps ++ [.name name]⟩) :
    Path.folder (path ⟨absolute, steps ++ [.name name]⟩) = path ⟨absolute, steps⟩ := by
  have frontProper : Proper ⟨absolute, steps⟩ := fun step member =>
    proper step (List.mem_append_left _ member)
  exact folder_eq frontProper (route_path proper)

theorem forall_foldStep
    {taken : List Step} {step : Step}
    {Holds : Step → Prop}
    (up : Holds .up)
    (before : ∀ other ∈ taken, Holds other)
    (new : Holds step) :
    ∀ other ∈ foldStep taken step, Holds other := by
  intro other member
  unfold foldStep at member
  split at member
  next text =>
    rcases List.mem_cons.1 member with rfl | earlier
    · exact new
    · exact before other earlier
  · split at member
    next name kept => exact before other (List.mem_cons_of_mem _ member)
    · rcases List.mem_cons.1 member with rfl | earlier
      · exact up
      · exact before other earlier

/-- Folding keeps steps or drops them, and makes none but steps up. -/
theorem forall_fold
    {route : Route} {Holds : Step → Prop}
    (up : Holds .up)
    (all : ∀ step ∈ route.steps, Holds step) :
    ∀ step ∈ route.fold.steps, Holds step := by
  have folded : ∀ (steps taken : List Step), (∀ step ∈ steps, Holds step) →
      (∀ step ∈ taken, Holds step) → ∀ step ∈ steps.foldl foldStep taken, Holds step := by
    intro steps
    induction steps with
    | nil => exact fun taken _ takenHold => takenHold
    | cons first steps inductionHypothesis =>
        intro taken stepsHold takenHold
        rw [List.forall_mem_cons] at stepsHold
        exact inductionHypothesis _ stepsHold.2 (forall_foldStep up takenHold stepsHold.1)
  intro step member
  exact folded route.steps [] all (by simp) step (List.mem_reverse.1 member)

theorem Proper.fold
    {route : Route}
    (proper : route.Proper) :
    route.fold.Proper :=
  forall_fold trivial proper

/-- What stands before the last part of a written route. -/
def frontParts (absolute : Bool) (steps : List Step) : List Text :=
  (if absolute then [[]] else []) ++ steps.map Step.text

theorem parts_concat (absolute : Bool) (steps : List Step) (step : Step) :
    parts ⟨absolute, steps ++ [step]⟩ = frontParts absolute steps ++ [step.text] := by
  cases absolute <;> cases steps <;> simp [parts, frontParts]

/-- A route is written with its front parts, unless there is nothing to write. -/
theorem parts_eq_frontParts
    {absolute : Bool} {steps : List Step}
    (nonempty : steps ≠ []) :
    parts ⟨absolute, steps⟩ = frontParts absolute steps := by
  cases steps with
  | nil => exact absurd rfl nonempty
  | cons step steps => cases absolute <;> rfl

end Route

namespace Path

theorem proper_route (path : Text) : (route path).Proper := by
  intro step member
  obtain ⟨part, inside, read⟩ := List.mem_filterMap.1 member
  exact (proper_of_stepOf? (separator_notMem_of_mem_splitOn inside) read).1

/-- The normal form of a path has the folded steps of the path. -/
theorem route_normalize (path : Text) : route (normalize path) = (route path).fold :=
  Route.route_path (proper_route path).fold

theorem fileName?_eq_some_iff {path name : Text} :
    fileName? path = some name ↔ (route path).steps.getLast? = some (.name name) := by
  unfold fileName?
  split
  next text last => simp [last]
  next other =>
    constructor
    · intro named
      simp at named
    · intro last
      exact absurd last (other name)

/-- A path that ends in a name has this name in its normal form. -/
theorem fileName?_normalize
    {path name : Text}
    (named : fileName? path = some name) :
    fileName? (normalize path) = some name := by
  rw [fileName?_eq_some_iff, List.getLast?_eq_some_iff] at named
  obtain ⟨front, steps⟩ := named
  rw [fileName?_eq_some_iff, route_normalize, Route.fold, steps, List.foldl_append]
  simp [foldStep]

end Path

end Upkeep
