import Upkeep.Proofs.Path.Canonical

/-!
Paths that are continued by names.  The name that comes last is the name of what the path
names, and its extension is what follows its last dot.
-/

namespace Upkeep

variable {path name : Text} {place : List Text}

theorem IsName.splitOn
    {name : Text}
    (isName : IsName name) :
    name.splitOn '/' = [name] := by
  have proper : Route.Proper ⟨false, [.name name]⟩ := by
    intro step member
    rw [List.mem_singleton] at member
    rw [member]
    exact isName
  have split := Route.splitOn_path proper
  simpa [Route.path, Route.parts, Step.text, List.intercalate] using split

theorem IsName.isAbsolute
    {name : Text}
    (isName : IsName name) :
    Path.isAbsolute name = false := by
  obtain ⟨nonempty, _, _, noSlash⟩ := isName
  cases name with
  | nil => exact absurd rfl nonempty
  | cons c rest =>
      rw [List.mem_cons, not_or] at noSlash
      simp [Path.isAbsolute, Ne.symm noSlash.1]

namespace Path

/-- What stands before a name that continues a path. -/
def lead (path : Text) : Text :=
  if path = [] ∨ path.getLast? = some '/' then path else path ++ ['/']

theorem join_eq
    (relative : isAbsolute name = false) (path : Text) :
    join path name = lead path ++ name := by
  rw [join, lead, if_neg (by simp [relative])]
  split
  · rfl
  · rw [List.append_assoc, List.singleton_append]

theorem lead_eq_nil_or_concat (path : Text) :
    lead path = [] ∨ ∃ front, lead path = front ++ ['/'] := by
  unfold lead
  split
  next ended => exact ended.imp_right List.getLast?_eq_some_iff.1
  · exact .inr ⟨path, rfl⟩

theorem splitOn_join
    (isName : IsName name) (path : Text) :
    ∃ parts, (join path name).splitOn '/' = parts ++ [name] := by
  rw [join_eq isName.isAbsolute]
  rcases lead_eq_nil_or_concat path with empty | ⟨front, ends⟩
  · rw [empty, List.nil_append, isName.splitOn]
    exact ⟨[], rfl⟩
  · rw [ends, List.append_assoc, List.singleton_append]
    refine ⟨front.splitOn '/', ?_⟩
    have split : (front ++ '/' :: name).splitOn '/' = front.splitOn '/' ++ name.splitOn '/' :=
      List.splitOnP_append_cons front name (by decide)
    rw [split, isName.splitOn]

theorem fileName?_join
    (isName : IsName name) (path : Text) :
    fileName? (join path name) = some name := by
  obtain ⟨parts, split⟩ := splitOn_join isName path
  have proper : Step.Proper (.name name) := isName
  have read : stepOf? name = some (.name name) := proper.stepOf?_text
  rw [fileName?_eq_some_iff, route, split, List.filterMap_append, List.filterMap_cons_some read,
    List.filterMap_nil, List.getLast?_concat]

theorem fileName?_foldl_join
    (names : ∀ name ∈ place, IsName name)
    (last : place.getLast? = some name) (path : Text) :
    fileName? (place.foldl join path) = some name := by
  obtain ⟨front, rfl⟩ := List.getLast?_eq_some_iff.1 last
  rw [List.foldl_append, List.foldl_cons, List.foldl_nil]
  exact fileName?_join (names name (by simp)) _

theorem lead_append_of_isName
    (isName : IsName name) (front : Text) :
    lead (front ++ name) = front ++ name ++ ['/'] := by
  rw [lead, if_neg]
  rintro (empty | ends)
  · exact isName.1 (List.append_eq_nil_iff.1 empty).2
  · rw [List.getLast?_append, List.getLast?_eq_some_getLast isName.1, Option.some_or,
      Option.some.injEq] at ends
    exact isName.2.2.2 (ends ▸ List.getLast_mem isName.1)

theorem foldl_join_append
    (isName : IsName name)
    (names : ∀ other ∈ place, IsName other) (front : Text) :
    place.foldl join (front ++ name) = front ++ ['/'].intercalate (name :: place) := by
  induction place generalizing front name with
  | nil => simp [List.intercalate]
  | cons next rest inductionHypothesis =>
      rw [List.forall_mem_cons] at names
      rw [List.foldl_cons, join_eq names.1.isAbsolute, lead_append_of_isName isName,
        inductionHypothesis names.1 names.2]
      simp [List.intercalate]

theorem foldl_join_eq_lead_append
    (names : ∀ name ∈ place, IsName name)
    (some_ : place ≠ []) (path : Text) :
    place.foldl join path = lead path ++ ['/'].intercalate place := by
  cases place with
  | nil => exact absurd rfl some_
  | cons name rest =>
      rw [List.forall_mem_cons] at names
      rw [List.foldl_cons, join_eq names.1.isAbsolute, foldl_join_append names.1 names.2]

/-- Names are appended to a path with slashes between them. -/
theorem foldl_join
    (names : ∀ name ∈ place, IsName name)
    (some_ : place ≠ []) (path : Text) :
    place.foldl join path = join path (['/'].intercalate place) := by
  have relative : isAbsolute (['/'].intercalate place) = false := by
    cases place with
    | nil => exact absurd rfl some_
    | cons name rest =>
        rw [List.forall_mem_cons] at names
        have alone := names.1.isAbsolute
        cases name with
        | nil => exact absurd rfl names.1.1
        | cons c text => cases rest <;> simpa [List.intercalate, isAbsolute] using alone
  rw [foldl_join_eq_lead_append names some_, join_eq relative]

theorem length_lt_foldl_join
    (names : ∀ name ∈ place, IsName name)
    (some_ : place ≠ []) (path : Text) :
    path.length < (place.foldl join path).length := by
  rw [foldl_join_eq_lead_append names some_, List.length_append]
  have leading : path.length ≤ (lead path).length := by
    unfold lead
    split <;> simp
  have below : (['/'].intercalate place).length ≠ 0 := by
    intro empty
    have split := List.splitOn_intercalate '/' (fun name member => (names name member).2.2.2) some_
    rw [List.length_eq_zero_iff.1 empty] at split
    have alone : [] ∈ place := by rw [← split]; exact List.mem_singleton_self _
    exact (names [] alone).1 rfl
  omega

/-- The names that continue a path can be read off it. -/
theorem foldl_join_inj
    {other : List Text}
    (names : ∀ name ∈ place, IsName name)
    (namesOther : ∀ name ∈ other, IsName name)
    (same : place.foldl join path = other.foldl join path) :
    place = other := by
  cases place with
  | nil =>
      cases other with
      | nil => rfl
      | cons name rest =>
          have longer := length_lt_foldl_join namesOther (List.cons_ne_nil _ _) path
          rw [← same] at longer
          exact absurd longer (Nat.lt_irrefl _)
  | cons first back =>
      have some_ := List.cons_ne_nil first back
      cases other with
      | nil =>
          have longer := length_lt_foldl_join names some_ path
          rw [same] at longer
          exact absurd longer (Nat.lt_irrefl _)
      | cons name rest =>
          have someOther := List.cons_ne_nil name rest
          rw [foldl_join_eq_lead_append names some_,
            foldl_join_eq_lead_append namesOther someOther, List.append_cancel_left_eq] at same
          rw [← List.splitOn_intercalate '/' (fun name member => (names name member).2.2.2) some_,
            same,
            List.splitOn_intercalate '/' (fun name member => (namesOther name member).2.2.2)
              someOther]

theorem splitName_snd_eq_some_iff {extension : Text} :
    (splitName name).2 = some extension ↔
      ∃ stem, stem ≠ [] ∧ '.' ∉ extension ∧ name = stem ++ '.' :: extension := by
  constructor
  · intro read
    have whole : (name.reverse.dropWhile (· != '.')).reverse ++
        (name.reverse.takeWhile (· != '.')).reverse = name := by
      rw [← List.reverse_append, List.takeWhile_append_dropWhile, List.reverse_reverse]
    rw [splitName] at read
    split at read
    · simp at read
    next long =>
      rw [Option.some.injEq] at read
      rw [read] at whole
      cases dotted : name.reverse.dropWhile (· != '.') with
      | nil => simp [dotted] at long
      | cons dot stem =>
          have first := List.head?_dropWhile_not (· != '.') name.reverse
          rw [dotted] at first whole long
          have isDot : dot = '.' := by simpa using first
          refine ⟨stem.reverse, ?_, ?_, ?_⟩
          · intro empty
            simp [List.reverse_eq_nil_iff.1 empty] at long
          · intro member
            rw [← read, List.mem_reverse] at member
            have other := List.all_eq_true.1 List.all_takeWhile _ member
            simp at other
          · rw [← whole, isDot, List.reverse_cons, List.append_assoc, List.singleton_append]
  · rintro ⟨stem, nonempty, noDot, rfl⟩
    have others : ∀ c ∈ extension.reverse, (c != '.') = true := by
      intro c member
      rw [bne_iff_ne]
      rintro rfl
      exact noDot (List.mem_reverse.1 member)
    have reversed : (stem ++ '.' :: extension).reverse =
        extension.reverse ++ '.' :: stem.reverse := by
      rw [List.reverse_append, List.reverse_cons, List.append_assoc, List.singleton_append]
    have dot : ¬ ('.' != '.') = true := by decide
    have long : ¬ (('.' :: stem.reverse).reverse).length ≤ 1 := by
      have := List.length_pos_iff.2 nonempty
      simp only [List.length_reverse, List.length_cons]
      omega
    rw [splitName, reversed, List.takeWhile_append_of_pos others,
      List.dropWhile_append_of_pos others, List.takeWhile_cons_of_neg (p := (· != '.')) dot,
      List.dropWhile_cons_of_neg (p := (· != '.')) dot, if_neg long, List.append_nil,
      List.reverse_reverse]

/-- What continues a path comes after its parts, but for an empty one at its end. -/
theorem exists_splitOn_lead (path : Text) :
    ∃ parts, parts.filterMap stepOf? = (path.splitOn '/').filterMap stepOf? ∧
      parts ⊆ path.splitOn '/' ∧
      ∀ rest : Text, (lead path ++ rest).splitOn '/' = parts ++ rest.splitOn '/' := by
  have split : ∀ front rest : Text,
      (front ++ '/' :: rest).splitOn '/' = front.splitOn '/' ++ rest.splitOn '/' :=
    fun front rest => List.splitOnP_append_cons front rest (by decide)
  by_cases ended : path = [] ∨ path.getLast? = some '/'
  · rcases ended with rfl | ends
    · exact ⟨[], rfl, List.nil_subset _, fun rest => rfl⟩
    · obtain ⟨front, rfl⟩ := List.getLast?_eq_some_iff.1 ends
      have whole := split front []
      refine ⟨front.splitOn '/', ?_, ?_, ?_⟩
      · rw [whole, List.filterMap_append]
        exact (List.append_nil _).symm
      · rw [whole]
        exact List.subset_append_left _ _
      · intro rest
        rw [lead, if_pos (.inr ends), List.append_assoc]
        exact split front rest
  · refine ⟨path.splitOn '/', rfl, List.Subset.refl _, ?_⟩
    intro rest
    rw [lead, if_neg ended, List.append_assoc]
    exact split path rest

theorem isAbsolute_join
    (relative : isAbsolute name = false) (path : Text) :
    isAbsolute (join path name) = isAbsolute path := by
  rw [join_eq relative]
  cases path with
  | nil => exact relative
  | cons c rest =>
      rw [lead]
      split <;> rfl

/-- A name that continues a path is one more step. -/
theorem route_join
    (isName : IsName name) (path : Text) :
    route (join path name) = ⟨isAbsolute path, (route path).steps ++ [.name name]⟩ := by
  obtain ⟨parts, steps, _, split⟩ := exists_splitOn_lead path
  have proper : Step.Proper (.name name) := isName
  have read : stepOf? name = some (.name name) := proper.stepOf?_text
  rw [route, isAbsolute_join isName.isAbsolute, join_eq isName.isAbsolute, split, isName.splitOn,
    List.filterMap_append, steps, List.filterMap_cons_some read]
  rfl

theorem route_foldl_join
    (names : ∀ name ∈ place, IsName name) (path : Text) :
    route (place.foldl join path) = ⟨isAbsolute path, (route path).steps ++ place.map .name⟩ := by
  induction place generalizing path with
  | nil => simp [route]
  | cons name rest inductionHypothesis =>
      rw [List.forall_mem_cons] at names
      rw [List.foldl_cons, inductionHypothesis names.2, isAbsolute_join names.1.isAbsolute,
        route_join names.1]
      simp

/-- Paths that do not go up do not go up together. -/
theorem up_notMem_route_join
    {continuation : Text}
    (inside : ['.', '.'] ∉ path.splitOn '/')
    (continuationInside : ['.', '.'] ∉ continuation.splitOn '/') :
    .up ∉ (route (join path continuation)).steps := by
  have ofParts : ∀ parts : List Text, ['.', '.'] ∉ parts → .up ∉ parts.filterMap stepOf? := by
    intro parts noUp member
    obtain ⟨part, inParts, read⟩ := List.mem_filterMap.1 member
    unfold stepOf? at read
    split at read
    · simp at read
    split at read
    next up => exact noUp (up ▸ inParts)
    · simp at read
  by_cases absolute : isAbsolute continuation = true
  · rw [join, if_pos absolute]
    exact ofParts _ continuationInside
  · obtain ⟨parts, _, within, split⟩ := exists_splitOn_lead path
    rw [join_eq (Bool.eq_false_iff.2 absolute), route]
    apply ofParts
    rw [split, List.mem_append]
    rintro (front | back)
    · exact inside (within front)
    · exact continuationInside back

end Path

/-- A route that does not go up is folded already. -/
theorem Route.fold_of_up_notMem
    {route : Route}
    (inside : .up ∉ route.steps) :
    route.fold = route := by
  have onlyNames : ∀ steps : List Step, .up ∉ steps →
      ∃ names : List Text, steps = names.map .name := by
    intro steps
    induction steps with
    | nil => exact fun _ => ⟨[], rfl⟩
    | cons step steps inductionHypothesis =>
        intro noUp
        rw [List.mem_cons, not_or] at noUp
        obtain ⟨names, rfl⟩ := inductionHypothesis noUp.2
        cases step with
        | up => exact absurd rfl noUp.1
        | name text => exact ⟨text :: names, rfl⟩
  obtain ⟨names, steps⟩ := onlyNames route.steps inside
  exact Route.fold_eq_self ⟨0, names, steps⟩

end Upkeep
