import Upkeep.Proofs.Path.Normal

/-!
The form of normal paths.  They go up first and to names after that, without any idle part, and the
paths of this form are exactly those that normalising leaves as they are.
-/

namespace Upkeep

/-- Whether steps go up first and only to names after that. -/
def UpsThenNames (steps : List Step) : Prop :=
  ∃ (ups : Nat) (names : List Text), steps = List.replicate ups .up ++ names.map .name

/-- Folding one more step keeps the names, last one first, in front of the steps that go up. -/
theorem exists_foldStep (names : List Text) (ups : Nat) (step : Step) :
    ∃ (names' : List Text) (ups' : Nat),
      foldStep (names.map .name ++ List.replicate ups .up) step =
        names'.map .name ++ List.replicate ups' .up := by
  cases step with
  | name text => exact ⟨text :: names, ups, rfl⟩
  | up =>
      cases names with
      | cons name names => exact ⟨names, ups, rfl⟩
      | nil => exact ⟨[], ups + 1, by cases ups <;> rfl⟩

theorem exists_foldl_foldStep (steps : List Step) (names : List Text) (ups : Nat) :
    ∃ (names' : List Text) (ups' : Nat),
      steps.foldl foldStep (names.map .name ++ List.replicate ups .up) =
        names'.map .name ++ List.replicate ups' .up := by
  induction steps generalizing names ups with
  | nil => exact ⟨names, ups, rfl⟩
  | cons step steps inductionHypothesis =>
      obtain ⟨names', ups', same⟩ := exists_foldStep names ups step
      rw [List.foldl_cons, same]
      exact inductionHypothesis names' ups'

theorem Route.upsThenNames_fold (route : Route) : UpsThenNames route.fold.steps := by
  obtain ⟨names, ups, same⟩ := exists_foldl_foldStep route.steps [] 0
  refine ⟨ups, names.reverse, ?_⟩
  have folded : route.steps.foldl foldStep [] = names.map .name ++ List.replicate ups .up := same
  rw [fold, folded, List.reverse_append, List.reverse_replicate, List.map_reverse]

theorem foldl_foldStep_names (names : List Text) (taken : List Step) :
    (names.map Step.name).foldl foldStep taken = (names.map Step.name).reverse ++ taken := by
  induction names generalizing taken with
  | nil => rfl
  | cons name names inductionHypothesis =>
      rw [List.map_cons, List.foldl_cons, foldStep, inductionHypothesis]
      simp

theorem foldl_foldStep_ups (ups before : Nat) :
    (List.replicate ups Step.up).foldl foldStep (List.replicate before .up) =
      List.replicate (before + ups) .up := by
  induction ups generalizing before with
  | zero => rfl
  | succ ups inductionHypothesis =>
      have once : foldStep (List.replicate before .up) .up = List.replicate (before + 1) .up := by
        cases before <;> rfl
      rw [List.replicate_succ, List.foldl_cons, once, inductionHypothesis]
      congr 1
      omega

/-- There is nothing to fold where names come last. -/
theorem Route.fold_eq_self
    {route : Route}
    (upsThenNames : UpsThenNames route.steps) :
    route.fold = route := by
  obtain ⟨absolute, steps⟩ := route
  obtain ⟨ups, names, rfl⟩ := upsThenNames
  have folded : (List.replicate ups Step.up).foldl foldStep [] = List.replicate ups .up := by
    simpa using foldl_foldStep_ups ups 0
  rw [fold, List.foldl_append, folded, foldl_foldStep_names, List.reverse_append,
    List.reverse_reverse, List.reverse_replicate]

theorem map_text_ups_append (ups : Nat) (names : List Text) :
    (List.replicate ups Step.up ++ names.map Step.name).map Step.text =
      List.replicate ups ['.', '.'] ++ names := by
  rw [List.map_append, List.map_replicate, List.map_map]
  exact congrArg (_ ++ ·) (List.map_id names)

/-- Whether a path is a dot, or a slash if it starts at the root and then `..` a number of times
and then names, with single slashes between them. -/
def IsCanonical (path : Text) : Prop :=
  path = ['.'] ∨
    ∃ (root : Text) (ups : Nat) (names : List Text),
      (root = [] ∨ root = ['/']) ∧ (∀ name ∈ names, IsName name) ∧
        path = root ++ ['/'].intercalate (List.replicate ups ['.', '.'] ++ names) ∧ path ≠ []

theorem Route.isCanonical_path
    {route : Route}
    (proper : route.Proper)
    (upsThenNames : UpsThenNames route.steps) :
    IsCanonical route.path := by
  obtain ⟨absolute, steps⟩ := route
  obtain ⟨ups, names, rfl⟩ := upsThenNames
  have areNames : ∀ name ∈ names, IsName name := by
    intro name member
    exact proper (.name name) (List.mem_append_right _ (List.mem_map_of_mem member))
  have something := path_ne_nil proper
  cases absolute with
  | true =>
      refine .inr ⟨['/'], ups, names, .inr rfl, areNames, ?_, something⟩
      rw [path, map_text_ups_append]
      rfl
  | false =>
      by_cases nowhere : List.replicate ups Step.up ++ names.map Step.name = []
      · exact .inl (by simp [path, nowhere])
      · refine .inr ⟨[], ups, names, .inl rfl, areNames, ?_, something⟩
        simp only [path, Bool.false_eq_true, if_false, if_neg nowhere, map_text_ups_append,
          List.nil_append]

/-- A path of canonical form is written from steps that go up first. -/
theorem IsCanonical.exists_route
    {path : Text}
    (canonical : IsCanonical path) :
    ∃ route : Route, route.Proper ∧ UpsThenNames route.steps ∧ path = route.path := by
  rcases canonical with rfl | ⟨root, ups, names, isRoot, areNames, rfl, something⟩
  · exact ⟨⟨false, []⟩, by simp [Route.Proper], ⟨0, [], rfl⟩, rfl⟩
  · have proper : ∀ step ∈ List.replicate ups Step.up ++ names.map .name, step.Proper := by
      intro step member
      rcases List.mem_append.1 member with isUp | isName
      · rw [List.eq_of_mem_replicate isUp]
        trivial
      · obtain ⟨name, inNames, rfl⟩ := List.mem_map.1 isName
        exact areNames name inNames
    rcases isRoot with rfl | rfl
    · refine ⟨⟨false, _⟩, proper, ⟨ups, names, rfl⟩, ?_⟩
      have further : List.replicate ups Step.up ++ names.map Step.name ≠ [] := by
        intro nowhere
        rw [← map_text_ups_append, nowhere] at something
        exact something rfl
      simp only [Route.path, Bool.false_eq_true, if_false, if_neg further, map_text_ups_append,
        List.nil_append]
    · refine ⟨⟨true, _⟩, proper, ⟨ups, names, rfl⟩, ?_⟩
      rw [Route.path, map_text_ups_append]
      rfl

namespace Path

theorem isCanonical_normalize (path : Text) : IsCanonical (normalize path) :=
  Route.isCanonical_path (proper_route path).fold (Route.upsThenNames_fold _)

theorem normalize_eq_self_iff {path : Text} : normalize path = path ↔ IsCanonical path := by
  constructor
  · intro same
    rw [← same]
    exact isCanonical_normalize path
  · intro canonical
    obtain ⟨route, proper, upsThenNames, rfl⟩ := canonical.exists_route
    rw [normalize, Route.route_path proper, Route.fold_eq_self upsThenNames]

theorem isAbsolute_normalize (path : Text) : isAbsolute (normalize path) = isAbsolute path :=
  Route.isAbsolute_path (proper_route path).fold

theorem splitOn_normalize (path : Text) :
    (normalize path).splitOn '/' = (route path).fold.parts :=
  Route.splitOn_path (proper_route path).fold

end Path

end Upkeep
