import Upkeep.Build.Oracle
import Upkeep.Proofs.Tree.Follow

/-!
Builds that do not write to a file.  They may write elsewhere, but they make no
links and stay in their folder.
-/

namespace Upkeep

/-- A tree without links that is seen from the given folder. -/
structure Tree.Plain (tree : Tree) (folder : Place) : Prop where
  noLinks : tree.NoLinks
  workingDir : tree.workingDir = folder

theorem Tree.Plain.placeOf_eq
    {first second : Tree} {folder : Place}
    (firstPlain : first.Plain folder)
    (secondPlain : second.Plain folder) (path : Text) :
    first.placeOf path = second.placeOf path := by
  unfold placeOf startOf
  rw [firstPlain.workingDir, secondPlain.workingDir]

/-- Whether builds leave the file that a path names as it was. -/
def Oracle.Spares {State : Type} (oracle : Oracle State) (folder : Place) (path : Text) : Prop :=
  ∀ world : World State, world.tree.Plain folder →
    (oracle.build world).2.tree.Plain folder ∧
      (oracle.build world).2.tree.file? path = world.tree.file? path

theorem Oracle.spares_readOnly
    {State : Type} (answer : State → Tree → Answer × State) (folder : Place) (path : Text) :
    (Oracle.readOnly answer).Spares folder path := by
  intro world plain
  exact ⟨plain, rfl⟩

theorem Script.spares_oracle (script : Script) (folder : Place) (path : Text) :
    script.oracle.Spares folder path :=
  Oracle.spares_readOnly (fun calls _ => (script.answer calls, calls + 1)) folder path

/-- Whether builds do not disturb a file of a tree: they leave every tree as it is, or they
spare the file and no links are there. -/
def Oracle.Respects {State : Type} (oracle : Oracle State) (tree : Tree) (path : Text) : Prop :=
  (∀ world : World State, (oracle.build world).2.tree = world.tree) ∨
    tree.NoLinks ∧ oracle.Spares tree.workingDir path

theorem Oracle.respects_readOnly
    {State : Type} (answer : State → Tree → Answer × State) (tree : Tree) (path : Text) :
    (Oracle.readOnly answer).Respects tree path :=
  .inl fun _ => rfl

/-- Whether an oracle gives a verdict on the tree that it finds and leaves it as it is. -/
def Oracle.Judges {State : Type} (oracle : Oracle State) (verdict : Tree → Verdict) : Prop :=
  ∀ world : World State,
    (oracle.build world).1 = .ok (verdict world.tree) ∧
      (oracle.build world).2.tree = world.tree

theorem Oracle.judges_ofVerdict (verdict : Tree → Verdict) :
    (Oracle.ofVerdict verdict).Judges verdict :=
  fun _ => ⟨rfl, rfl⟩

end Upkeep
