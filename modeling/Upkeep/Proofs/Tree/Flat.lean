import Upkeep.Proofs.Path.Join
import Upkeep.Proofs.Tree.Leads
import Upkeep.Proofs.Tree.Order
import Upkeep.Proofs.Tree.Read

/-!
Trees that are one folder of text files.
-/

namespace Upkeep

/-- A folder of text files, seen from this folder. -/
def Tree.ofTexts (files : NameMap Text) : Tree :=
  ⟨.folder Node.folderMode (files.map fun file => (file.1, .file ⟨encode file.2, 0o644⟩)), []⟩

theorem Tree.get?_ofTexts_cons (files : NameMap Text) (name : Text) (rest : Place) :
    (Tree.ofTexts files).top.get? (name :: rest) =
      (NameMap.get? name files).bind fun text =>
        (Node.file ⟨encode text, 0o644⟩).get? rest := by
  rw [Tree.ofTexts, Node.get?_folder_cons,
    NameMap.get?_map fun text => Node.file ⟨encode text, 0o644⟩]
  cases NameMap.get? name files <;> rfl

theorem Tree.noLinks_ofTexts (files : NameMap Text) : (Tree.ofTexts files).NoLinks := by
  intro place target there
  cases place with
  | nil => simp [ofTexts] at there
  | cons name rest =>
      rw [get?_ofTexts_cons, Option.bind_eq_some_iff] at there
      obtain ⟨text, _, found⟩ := there
      cases rest <;> simp [Node.get?] at found

theorem Tree.ordered_ofTexts
    {files : NameMap Text}
    (ordered : NameMap.Ordered files) :
    (Tree.ofTexts files).top.Ordered := by
  intro place mode entries there
  cases place with
  | nil =>
      rw [Node.get?_nil, Option.some.injEq, ofTexts, Node.folder.injEq] at there
      rw [← there.2, NameMap.Ordered, List.pairwise_map]
      exact ordered
  | cons name rest =>
      rw [get?_ofTexts_cons, Option.bind_eq_some_iff] at there
      obtain ⟨text, _, found⟩ := there
      cases rest <;> simp [Node.get?] at found

theorem Tree.file?_ofTexts
    {files : NameMap Text} {name text : Text}
    (isName : IsName name)
    (noNul : '\x00' ∉ name)
    (listed : NameMap.get? name files = some text) :
    (Tree.ofTexts files).file? name = some ⟨encode text, 0o644⟩ := by
  have start : (Tree.ofTexts files).startOf name = [] := by
    simp [startOf, isName.isAbsolute, ofTexts]
  rw [file?_eq_some_iff (noLinks_ofTexts files), placeOf, start, isName.splitOn]
  refine ⟨isName.1, noNul, ?_, ?_⟩
  · have place : [name].foldl enter [] = [name] :=
      foldl_enter_names (List.forall_mem_singleton.2 isName) []
    rw [place, get?_ofTexts_cons, listed]
    rfl
  · rw [passable_cons_iff]
    exact ⟨⟨_, _, Node.get?_nil _⟩, passable_nil _ _⟩

theorem Tree.readText_ofTexts
    {files : NameMap Text} {name text : Text}
    (isName : IsName name)
    (noNul : '\x00' ∉ name)
    (listed : NameMap.get? name files = some text) :
    (Tree.ofTexts files).readText name = .ok text :=
  readText_eq_ok_iff.2 ⟨_, file?_ofTexts isName noNul listed⟩

theorem Tree.read_ofTexts
    {files : NameMap Text} {name text : Text}
    (isName : IsName name)
    (noNul : '\x00' ∉ name)
    (normal : Path.normalize name = name)
    (listed : NameMap.get? name files = some text) :
    SourceFile.read (Tree.ofTexts files) name = .ok ⟨name, text⟩ := by
  rw [SourceFile.read_eq_ok_iff, normal]
  exact ⟨rfl, readText_ofTexts isName noNul listed⟩

theorem Tree.exists_isRegular_ofTexts
    {files : NameMap Text} {name text : Text}
    (isName : IsName name)
    (noNul : '\x00' ∉ name)
    (listed : NameMap.get? name files = some text) :
    ∃ place, (Tree.ofTexts files).IsRegular name place ⟨encode text, 0o644⟩ :=
  ⟨_, (noLinks_ofTexts files).isRegular (file?_ofTexts isName noNul listed)⟩

/-- Two files, the first of which includes a header. -/
def includingTree : Tree :=
  .ofTexts [("a.cpp".toList, "#include <x>\nint a;\n".toList), ("b.cpp".toList, "int b;\n".toList)]

theorem readText_includingTree :
    includingTree.readText (Path.normalize "a.cpp".toList) =
      .ok "#include <x>\nint a;\n".toList :=
  Tree.readText_ofTexts (by decide) (by decide) (by decide)

theorem read_includingTree :
    SourceFile.read includingTree "a.cpp".toList =
      .ok ⟨"a.cpp".toList, "#include <x>\nint a;\n".toList⟩ :=
  Tree.read_ofTexts (by decide) (by decide) (by decide) (by decide)

/-- Two files, the first of which includes two headers. -/
def twoHeadersTree : Tree :=
  .ofTexts [("a.cpp".toList, "#include <x>\n#include <y>\nint a;\n".toList),
    ("b.cpp".toList, "int b;\n".toList)]

theorem readText_twoHeadersTree :
    twoHeadersTree.readText (Path.normalize "a.cpp".toList) =
      .ok "#include <x>\n#include <y>\nint a;\n".toList :=
  Tree.readText_ofTexts (by decide) (by decide) (by decide)

end Upkeep
