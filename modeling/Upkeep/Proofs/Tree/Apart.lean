import Upkeep.Proofs.Tree.Flat

/-!
Paths that name different files.  Work on several files is work on each of them only if no two of
their paths lead to one place.  That their normal forms differ is not enough: a path that goes up
can come back to where another one leads.
-/

namespace Upkeep

/-- Whether no two paths lead to one place. -/
def Tree.TellsApart (tree : Tree) (paths : List Text) : Prop :=
  paths.Pairwise fun path other =>
    tree.placeOf (Path.normalize path) ≠ tree.placeOf (Path.normalize other)

namespace Tree

variable {tree : Tree} {paths : List Text}

instance : Decidable (tree.TellsApart paths) :=
  inferInstanceAs (Decidable (paths.Pairwise _))

/-- Paths that lead to different places have distinct normal forms. -/
theorem TellsApart.nodup
    (apart : tree.TellsApart paths) :
    (paths.map Path.normalize).Nodup :=
  List.pairwise_map.2 (apart.imp fun different same => different (congrArg tree.placeOf same))

/-- Distinct normal forms tell their places apart if they start alike and do not go up. -/
theorem tellsApart_of_nodup
    (absolute : Bool)
    (starts : ∀ path ∈ paths, Path.isAbsolute path = absolute)
    (inside : ∀ path ∈ paths, .up ∉ (Path.route path).fold.steps)
    (distinct : (paths.map Path.normalize).Nodup) :
    tree.TellsApart paths := by
  apply (List.pairwise_map.1 distinct).imp_of_mem
  intro path other member otherMember different
  have sameStart := (starts path member).trans (starts other otherMember).symm
  exact placeOf_normalize_ne sameStart (inside path member) (inside other otherMember) different

end Tree

/-- Two paths for one file, seen from the root: there is nothing above it to go up to. -/
def aliases : List Text :=
  ["a.cpp".toList, "../a.cpp".toList]

theorem nodup_aliases : (aliases.map Path.normalize).Nodup := by
  decide

example : ¬ includingTree.TellsApart aliases := by
  decide

end Upkeep
