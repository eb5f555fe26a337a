import Upkeep.Tree.Walk

/-!
Entries of a list of files.  Work that passes over missing projects ends at the first entry that
is another error or a file that cannot be read.
-/

namespace Upkeep

def isMissingRoot : Listed → Bool
  | .error (.missingRoot _) => true
  | _ => false

/-- The entries of a list without missing projects. -/
def withoutMissing (listed : List Listed) : List Listed :=
  listed.filter fun item => !isMissingRoot item

/-- Why work that passes over missing projects ends at an entry, unless it goes on. -/
def blockage? (tree : Tree) : Listed → Option SourceError
  | .error (.missingRoot _) => none
  | .error error => some error
  | .ok entry =>
      match SourceFile.read tree entry.path with
      | .error error => some error
      | .ok _ => none

def listedPath? : Listed → Option Text
  | .error _ => none
  | .ok entry => some entry.path

/-- The paths that are listed, in order. -/
def pathsOf (listed : List Listed) : List Text :=
  listed.filterMap listedPath?

@[simp]
theorem pathsOf_nil : pathsOf [] = [] :=
  rfl

@[simp]
theorem pathsOf_error (error : SourceError) (rest : List Listed) :
    pathsOf (.error error :: rest) = pathsOf rest :=
  rfl

@[simp]
theorem pathsOf_ok (entry : ProjectFile) (rest : List Listed) :
    pathsOf (.ok entry :: rest) = entry.path :: pathsOf rest :=
  rfl

@[simp]
theorem withoutMissing_missingRoot (path : Text) (rest : List Listed) :
    withoutMissing (.error (.missingRoot path) :: rest) = withoutMissing rest :=
  rfl

theorem withoutMissing_cons
    {item : Listed}
    (counts : isMissingRoot item = false) (rest : List Listed) :
    withoutMissing (item :: rest) = item :: withoutMissing rest := by
  simp [withoutMissing, counts]

theorem mem_pathsOf_iff {listed : List Listed} {path : Text} :
    path ∈ pathsOf listed ↔ ∃ entry, .ok entry ∈ listed ∧ entry.path = path := by
  rw [pathsOf, List.mem_filterMap]
  constructor
  · rintro ⟨item, member, named⟩
    cases item with
    | error error => simp [listedPath?] at named
    | ok entry => exact ⟨entry, member, Option.some.inj named⟩
  · rintro ⟨entry, member, rfl⟩
    exact ⟨.ok entry, member, rfl⟩

theorem allFound_eq_ok_iff {listed : List Listed} {files : List ProjectFile} :
    allFound listed = .ok files ↔ listed = files.map .ok := by
  induction listed generalizing files with
  | nil =>
      rw [allFound, Except.ok.injEq, eq_comm, eq_comm (a := []), List.map_eq_nil_iff]
  | cons item rest inductionHypothesis =>
      cases item with
      | error error =>
          cases files <;> simp [allFound]
      | ok entry =>
          rw [allFound]
          cases found : allFound rest with
          | error error =>
              cases files with
              | nil => simp
              | cons first files =>
                  simp only [reduceCtorEq, List.map_cons, List.cons.injEq, false_iff, not_and]
                  intro _ same
                  rw [inductionHypothesis.2 same] at found
                  simp at found
          | ok others =>
              rw [inductionHypothesis.1 found]
              cases files with
              | nil => simp
              | cons first files =>
                  simp only [Except.ok.injEq, List.cons.injEq, List.map_cons]
                  rw [List.map_inj_right fun _ _ => Except.ok.inj]

end Upkeep
