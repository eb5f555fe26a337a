import Upkeep.Proofs.Tree.Follow
import Upkeep.Tree.SourceFile

/-!
Reading the text of a file.
-/

namespace Upkeep

theorem encode_of_decode?
    {bytes : ByteArray} {text : Text}
    (decoded : decode? bytes = some text) :
    encode text = bytes := by
  unfold decode? String.fromUTF8? at decoded
  split at decoded
  next valid =>
    rw [Option.map_some, Option.some.injEq] at decoded
    rw [← decoded, encode, String.ofList_toList]
    rfl
  next invalid => simp at decoded

theorem Tree.readText_eq_ok_iff {tree : Tree} {path text : Text} :
    tree.readText path = .ok text ↔ ∃ mode, tree.file? path = some ⟨encode text, mode⟩ := by
  rw [← read_eq_ok_iff, readText]
  cases tree.read path with
  | error fault => simp
  | ok bytes =>
      cases decoded : decode? bytes with
      | none =>
          simp only [decoded, reduceCtorEq, Except.ok.injEq, false_iff]
          rintro rfl
          simp at decoded
      | some other =>
          simp only [decoded, Except.ok.injEq]
          constructor
          · rintro rfl
            exact (encode_of_decode? decoded).symm
          · rintro rfl
            simpa [eq_comm] using decoded

theorem Tree.readText_eq_of_file?_eq
    {path text : Text} {first second : Tree}
    (same : first.file? path = second.file? path)
    (read : first.readText path = .ok text) :
    second.readText path = .ok text := by
  rw [readText_eq_ok_iff] at read ⊢
  rwa [← same]

theorem Tree.read_eq_of_file?_eq
    {path : Text} {first second : Tree} {bytes : ByteArray}
    (same : first.file? path = second.file? path)
    (read : first.read path = .ok bytes) :
    second.read path = .ok bytes := by
  rw [read_eq_ok_iff] at read ⊢
  rwa [← same]

theorem SourceFile.read_eq_ok_iff {tree : Tree} {path : Text} {file : SourceFile} :
    SourceFile.read tree path = .ok file ↔
      file.path = Path.normalize path ∧ tree.readText (Path.normalize path) = .ok file.content := by
  obtain ⟨filePath, content⟩ := file
  unfold SourceFile.read
  cases tree.readText (Path.normalize path) with
  | error fault => simp
  | ok text => simp [eq_comm]

theorem SourceFile.read_of_readText
    {tree : Tree} {path content : Text}
    (readText : tree.readText (Path.normalize path) = .ok content) :
    SourceFile.read tree path = .ok ⟨Path.normalize path, content⟩ :=
  SourceFile.read_eq_ok_iff.2 ⟨rfl, readText⟩

end Upkeep
