import Upkeep.Proofs.Build.Sparing
import Upkeep.Proofs.Tree.Write
import Upkeep.Proofs.Trial.Course

/-!
The disk during a run.  While a file is worked on, it holds the kept text or the
text on trial, and whatever else the builds spare stays as it was when the work on
the file began.
-/

namespace Upkeep

/-- Whether a tree is the given one but for the text of one file, as far as the
files are spared. -/
structure Holding (spared : Text → Prop) (base : Tree) (path text : Text) (tree : Tree) : Prop where
  plain : tree.Plain base.workingDir
  file : ∃ bytes mode,
    base.file? path = some ⟨bytes, mode⟩ ∧ tree.file? path = some ⟨encode text, mode⟩
  others : ∀ other, spared other → base.placeOf other ≠ base.placeOf path →
    tree.file? other = base.file? other

section

variable {State : Type} {spared : Text → Prop} {base tree : Tree} {path text : Text}

theorem Holding.readText
    (holding : Holding spared base path text tree) :
    tree.readText path = .ok text := by
  obtain ⟨_, mode, _, named⟩ := holding.file
  exact Tree.readText_eq_ok_iff.2 ⟨mode, named⟩

theorem Holding.read
    (holding : Holding spared base path text tree) :
    tree.read path = .ok (encode text) := by
  obtain ⟨_, mode, _, named⟩ := holding.file
  exact Tree.read_eq_ok_iff.2 ⟨mode, named⟩

theorem Holding.refl
    (plain : base.Plain base.workingDir)
    (read : base.readText path = .ok text) :
    Holding spared base path text base := by
  obtain ⟨mode, named⟩ := Tree.readText_eq_ok_iff.1 read
  exact ⟨plain, ⟨_, mode, named, named⟩, fun _ _ _ => rfl⟩

/-- The file on which the trials are made can always be written. -/
theorem Holding.write
    (basePlain : base.Plain base.workingDir)
    (holding : Holding spared base (Path.normalize path) text tree) (new : Text) :
    ∃ left, writeText tree (Path.normalize path) new = .ok left ∧
      Holding spared base (Path.normalize path) new left := by
  obtain ⟨bytes, mode, baseNamed, named⟩ := holding.file
  have noLinks := holding.plain.noLinks
  have regular := noLinks.isRegular named
  have there := regular.get?_eq
  refine ⟨_, regular.writeText new, ?_⟩
  constructor
  · exact ⟨noLinks.setFile there, holding.plain.workingDir⟩
  · exact ⟨bytes, mode, baseNamed, (regular.setFile _).file?_eq⟩
  · intro other otherSpared different
    have apart : tree.placeOf other ≠ tree.placeOf (Path.normalize path) := by
      rwa [holding.plain.placeOf_eq basePlain, holding.plain.placeOf_eq basePlain]
    rw [Tree.file?_setFile_of_ne noLinks there apart]
    exact holding.others other otherSpared different

theorem Holding.build
    {oracle : Oracle State} {world : World State}
    (spares : oracle.Spares base.workingDir path)
    (holding : Holding (oracle.Spares base.workingDir) base path text world.tree) :
    Holding (oracle.Spares base.workingDir) base path text (oracle.build world).2.tree := by
  obtain ⟨bytes, mode, baseNamed, named⟩ := holding.file
  obtain ⟨plain, same⟩ := spares world holding.plain
  refine ⟨plain, ⟨bytes, mode, baseNamed, same.trans named⟩, ?_⟩
  intro other otherSpared different
  rw [(otherSpared world holding.plain).2]
  exact holding.others other otherSpared different

/-- Text and tree go together if the file holds the text. -/
def holdingRelation (spared : Text → Prop) (base : Tree) (path : Text) : Relation where
  shows := Holding spared base path
  asks := fun text _ tree => Holding spared base path text tree

theorem holdingRelation_follows
    {oracle : Oracle State}
    (basePlain : base.Plain base.workingDir)
    (spares : oracle.Spares base.workingDir (Path.normalize path)) :
    (holdingRelation (oracle.Spares base.workingDir) base (Path.normalize path)).Follows oracle
      (Path.normalize path) where
  write := by
    intro tree left content text holding written
    obtain ⟨other, writtenToo, holdingNew⟩ := holding.write basePlain text
    rw [written, Except.ok.injEq] at writtenToo
    exact writtenToo ▸ holdingNew
  build := fun _ _ _ _ holding => ⟨holding, holding.build spares⟩

theorem holdingRelation_writable
    (basePlain : base.Plain base.workingDir)
    {tree : Tree} {text new : Text} {fault : SourceError}
    (holding : (holdingRelation spared base (Path.normalize path)).shows text tree) :
    writeText tree (Path.normalize path) new ≠ .error fault := by
  obtain ⟨left, written, _⟩ := Holding.write basePlain holding new
  simp [written]

/-- Trials on a file that can be written are ended early by a build alone. -/
theorem Trials.exists_build_of_stop
    {rule : Rule} {relation : Relation} {content final : Text} {start : Nat}
    {events : List Event} {error : TrialError}
    (writable : ∀ {text tree new fault}, relation.shows text tree →
      writeText tree path new ≠ .error fault)
    (trials : Trials rule path relation content start events final (some error)) :
    ∃ fault, error = .build fault ∧ ∃ text tree,
      relation.asks text (.error fault) tree ∧ .built (.error fault) tree ∈ events := by
  generalize stopped : some error = stop at trials
  induction trials with
  | done => simp at stopped
  | kept _ _ _ _ _ inductionHypothesis =>
      obtain ⟨fault, same, text, tree, asked, built⟩ := inductionHypothesis stopped
      exact ⟨fault, same, text, tree, asked, by simp [built]⟩
  | reverted _ _ _ _ _ inductionHypothesis =>
      obtain ⟨fault, same, text, tree, asked, built⟩ := inductionHypothesis stopped
      exact ⟨fault, same, text, tree, asked, by simp [built]⟩
  | stopped _ _ stops =>
      obtain rfl := Option.some.inj stopped
      cases stops with
      | unanswered asked => exact ⟨_, rfl, _, _, asked, by simp⟩
      | unwritten shown failed => exact absurd failed (writable shown)
      | unrestored _ _ shown failed => exact absurd failed (writable shown)

end

end Upkeep
