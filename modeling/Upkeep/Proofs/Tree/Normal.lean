import Upkeep.Proofs.Path.Canonical
import Upkeep.Proofs.Tree.Below
import Upkeep.Proofs.Tree.Flat

/-!
Normal paths in a tree without links.  A path and its normal form lead to the same place, and the
normal form gets there if the path does, as it needs fewer folders.
-/

namespace Upkeep

theorem Path.map_text_steps_route (path : Text) :
    (route path).steps.map Step.text = (path.splitOn '/').filter fun part => !isIdle part :=
  map_text_filterMap_stepOf? fun _ => separator_notMem_of_mem_splitOn

namespace Tree

theorem foldl_enter_filter (parts : List Text) (place : Place) :
    (parts.filter fun part => !isIdle part).foldl enter place = parts.foldl enter place := by
  induction parts generalizing place with
  | nil => rfl
  | cons part rest inductionHypothesis =>
      rw [List.foldl_cons]
      by_cases idle : isIdle part = true
      · rw [List.filter_cons_of_neg (by simp [idle]), enter, if_pos (isIdle_iff.1 idle)]
        exact inductionHypothesis place
      · rw [List.filter_cons_of_pos (by simp [idle]), List.foldl_cons]
        exact inductionHypothesis _

theorem foldl_enter_reverse_cons (step : Step) (taken : List Step) (place : Place) :
    ((step :: taken).reverse.map Step.text).foldl enter place =
      enter ((taken.reverse.map Step.text).foldl enter place) step.text := by
  simp

/-- A step that undoes a name leads back to where the name was entered. -/
theorem foldl_enter_foldStep
    {taken : List Step}
    (proper : ∀ step ∈ taken, step.Proper) (step : Step) (place : Place) :
    ((foldStep taken step).reverse.map Step.text).foldl enter place =
      enter ((taken.reverse.map Step.text).foldl enter place) step.text := by
  cases step with
  | name text => exact foldl_enter_reverse_cons (.name text) taken place
  | up =>
      cases taken with
      | nil => exact foldl_enter_reverse_cons .up [] place
      | cons last taken =>
          cases last with
          | up => exact foldl_enter_reverse_cons .up (.up :: taken) place
          | name text =>
              have isName : IsName text := proper _ List.mem_cons_self
              rw [foldStep, foldl_enter_reverse_cons, Step.text, Step.text,
                enter_of_isName isName, enter_up, List.dropLast_concat]

theorem foldl_enter_foldl_foldStep
    {steps taken : List Step}
    (stepsProper : ∀ step ∈ steps, step.Proper)
    (takenProper : ∀ step ∈ taken, step.Proper) (place : Place) :
    ((steps.foldl foldStep taken).reverse.map Step.text).foldl enter place =
      (steps.map Step.text).foldl enter ((taken.reverse.map Step.text).foldl enter place) := by
  induction steps generalizing taken with
  | nil => rfl
  | cons step steps inductionHypothesis =>
      rw [List.forall_mem_cons] at stepsProper
      have nextProper := Route.forall_foldStep trivial takenProper stepsProper.1
      rw [List.foldl_cons, inductionHypothesis stepsProper.2 nextProper,
        foldl_enter_foldStep takenProper, List.map_cons, List.foldl_cons]

/-- A path leads where its normal form leads. -/
theorem placeOf_normalize (tree : Tree) (path : Text) :
    tree.placeOf (Path.normalize path) = tree.placeOf path := by
  rw [placeOf, placeOf, startOf, startOf, Path.isAbsolute_normalize, Path.splitOn_normalize,
    foldl_enter_route_parts, Route.fold,
    foldl_enter_foldl_foldStep (Path.proper_route path) (by simp), Path.map_text_steps_route]
  exact foldl_enter_filter _ _

variable {top node : Node} {place : Place} {parts front back : List Text}

theorem passable_append_iff :
    Passable top place (front ++ back) ↔
      Passable top place front ∧ Passable top (front.foldl enter place) back := by
  induction front generalizing place with
  | nil => simp [passable_nil]
  | cons part front inductionHypothesis =>
      rw [List.cons_append, passable_cons_iff, passable_cons_iff, List.foldl_cons,
        inductionHypothesis, and_assoc]

theorem passable_ups
    (folder : top.FolderAt place) (ups : Nat) :
    Passable top place (List.replicate ups ['.', '.']) := by
  induction ups generalizing place with
  | zero => exact passable_nil top place
  | succ ups inductionHypothesis =>
      rw [List.replicate_succ, passable_cons_iff]
      exact ⟨folder, inductionHypothesis (folderAt_enter folder fun isEntry => isEntry.2 rfl)⟩

/-- Names are taken from folders if they lead to something. -/
theorem passable_names
    {names : List Text}
    (areNames : ∀ name ∈ names, IsName name)
    (there : top.get? (place ++ names) = some node) :
    Passable top place names := by
  induction names generalizing place with
  | nil => exact passable_nil top place
  | cons name names inductionHypothesis =>
      rw [List.forall_mem_cons] at areNames
      rw [passable_cons_iff, enter_of_isName areNames.1]
      refine ⟨Node.folderAt_of_get?_append there (by simp), inductionHypothesis areNames.2 ?_⟩
      rw [List.append_assoc]
      exact there

/-- A route that goes up first and to names after that can be followed from a folder if it leads to
something. -/
theorem passable_parts
    {route : Route}
    (proper : route.Proper)
    (upsThenNames : UpsThenNames route.steps)
    (folder : top.FolderAt place)
    (there : top.get? (route.parts.foldl enter place) = some node) :
    Passable top place route.parts := by
  rw [foldl_enter_route_parts] at there
  have texts : Passable top place (route.steps.map Step.text) := by
    obtain ⟨ups, names, steps⟩ := upsThenNames
    have areNames : ∀ name ∈ names, IsName name := by
      intro name member
      apply proper (.name name)
      rw [steps]
      exact List.mem_append_right _ (List.mem_map_of_mem member)
    rw [steps, map_text_ups_append] at there ⊢
    rw [List.foldl_append, foldl_enter_names areNames] at there
    exact passable_append_iff.2 ⟨passable_ups folder ups, passable_names areNames there⟩
  obtain ⟨absolute, steps⟩ := route
  have root : Passable top place (Route.frontParts absolute steps) := by
    cases absolute with
    | false => exact texts
    | true => exact passable_cons_iff.2 ⟨folder, texts⟩
  by_cases empty : steps = []
  · subst empty
    cases absolute with
    | false => exact passable_cons_iff.2 ⟨folder, passable_nil _ _⟩
    | true => exact passable_cons_iff.2 ⟨folder, passable_cons_iff.2 ⟨folder, passable_nil _ _⟩⟩
  · rwa [Route.parts_eq_frontParts empty]

end Tree

namespace Path

variable {path : Text} {c : Char}

theorem mem_iff_mem_step
    (noSlash : c ≠ '/')
    (noDot : c ≠ '.') :
    c ∈ path ↔ ∃ step ∈ (route path).steps, c ∈ step.text := by
  rw [mem_iff_mem_part '/' noSlash]
  constructor
  · rintro ⟨part, isPart, inside⟩
    have busy : isIdle part = false := by
      rw [Bool.eq_false_iff, ne_eq, isIdle_iff]
      rintro (rfl | rfl)
      · simp at inside
      · exact noDot (List.mem_singleton.1 inside)
    have isText : part ∈ (route path).steps.map Step.text := by
      rw [map_text_steps_route]
      exact List.mem_filter.2 ⟨isPart, by simp [busy]⟩
    obtain ⟨step, member, rfl⟩ := List.mem_map.1 isText
    exact ⟨step, member, inside⟩
  · rintro ⟨step, member, inside⟩
    have isText := List.mem_map_of_mem (f := Step.text) member
    rw [map_text_steps_route] at isText
    exact ⟨step.text, (List.mem_filter.1 isText).1, inside⟩

/-- Normalising makes no characters up to slashes and dots. -/
theorem mem_of_mem_normalize
    (noSlash : c ≠ '/')
    (noDot : c ≠ '.')
    (member : c ∈ normalize path) :
    c ∈ path := by
  have kept : ∀ step ∈ (route path).fold.steps, c ∈ step.text → c ∈ path := by
    refine Route.forall_fold ?_ ?_
    · intro inside
      exact absurd inside (by simp [Step.text, noDot])
    · intro step isStep inside
      exact (mem_iff_mem_step noSlash noDot).2 ⟨step, isStep, inside⟩
  rw [mem_iff_mem_step noSlash noDot, route_normalize] at member
  obtain ⟨step, isStep, inside⟩ := member
  exact kept step isStep inside

end Path

namespace Tree

variable {tree : Tree} {path : Text}

/-- Without links, a path that leads to something can be replaced by its normal form. -/
theorem locate_normalize
    {followLast : Bool} {place : Place} {node : Node}
    (noLinks : tree.NoLinks)
    (located : tree.locate followLast path = .ok ⟨place, some node⟩) :
    tree.locate followLast (Path.normalize path) = .ok ⟨place, some node⟩ := by
  have proper := (Path.proper_route path).fold
  obtain ⟨_, noNul, same, passable⟩ := (locate_eq_ok_iff noLinks).1 located
  obtain ⟨rfl, there⟩ := Target.mk.inj same
  have start : tree.startOf (Path.normalize path) = tree.startOf path := by
    rw [startOf, startOf, Path.isAbsolute_normalize]
  have folder : tree.top.FolderAt (tree.startOf path) := by
    cases parts : path.splitOn '/' with
    | nil => exact absurd parts (List.splitOn_ne_nil _ _)
    | cons part rest =>
        rw [parts] at passable
        exact (passable_cons_iff.1 passable).1
  rw [locate_eq_ok_iff noLinks, placeOf_normalize, ← there]
  refine ⟨Route.path_ne_nil proper, ?_, rfl, ?_⟩
  · exact fun nul => noNul (Path.mem_of_mem_normalize (by decide) (by decide) nul)
  · have leadsThere : tree.top.get? (tree.placeOf (Path.normalize path)) = some node := by
      rw [placeOf_normalize, there]
    rw [placeOf, start, Path.splitOn_normalize] at leadsThere
    rw [start, Path.splitOn_normalize]
    exact passable_parts proper (Route.upsThenNames_fold _) folder leadsThere

end Tree

/-- The normal form of a path is a dot, or a slash if there is one at the start and then `..` a
number of times and then names; it is its own normal form; and in a tree without links it leads
where the path leads, if anything is there. -/
theorem normalize_is_canonical_and_leads_alike (path : Text) :
    IsCanonical (Path.normalize path) ∧
    Path.normalize (Path.normalize path) = Path.normalize path ∧
    ∀ (tree : Tree) (followLast : Bool) (place : Place) (node : Node), tree.NoLinks →
      tree.locate followLast path = .ok ⟨place, some node⟩ →
      tree.locate followLast (Path.normalize path) = .ok ⟨place, some node⟩ := by
  have canonical := Path.isCanonical_normalize path
  refine ⟨canonical, Path.normalize_eq_self_iff.2 canonical, ?_⟩
  intro tree followLast place node noLinks located
  exact Tree.locate_normalize noLinks located

/-- A path that goes above the top, stays there and comes back. -/
theorem normalize_is_canonical_and_leads_alike_of_includingTree :
    Path.normalize "/.././/b.cpp".toList = "/../b.cpp".toList ∧
      includingTree.NoLinks ∧
      includingTree.locate true "/.././/b.cpp".toList =
        .ok ⟨["b.cpp".toList], some (.file ⟨encode "int b;\n".toList, 0o644⟩)⟩ ∧
      includingTree.locate true (Path.normalize "/.././/b.cpp".toList) =
        .ok ⟨["b.cpp".toList], some (.file ⟨encode "int b;\n".toList, 0o644⟩)⟩ := by
  have noLinks : includingTree.NoLinks := Tree.noLinks_ofTexts _
  have located : includingTree.locate true "/.././/b.cpp".toList =
      .ok ⟨["b.cpp".toList], some (.file ⟨encode "int b;\n".toList, 0o644⟩)⟩ := by
    rfl
  obtain ⟨_, _, leadsAlike⟩ := normalize_is_canonical_and_leads_alike "/.././/b.cpp".toList
  exact ⟨by decide, noLinks, located, leadsAlike _ _ _ _ noLinks located⟩

end Upkeep
