import Mathlib.Data.Char
import Mathlib.Data.List.Lex
import Upkeep.NameMap

/-!
Maps whose names ascend.  Setting an entry keeps them so, and then a map is known once the
value of each name is.
-/

namespace Upkeep

namespace NameMap

variable {Value : Type} {name : Text} {value : Value} {map : NameMap Value}

/-- Whether the names of a map ascend. -/
def Ordered (map : NameMap Value) : Prop :=
  map.Pairwise fun first second => first.1 < second.1

theorem set_set (name : Text) (first second : Value) (map : NameMap Value) :
    set name second (set name first map) = set name second map := by
  induction map with
  | nil => simp [set]
  | cons entry rest inductionHypothesis =>
      obtain ⟨other, old⟩ := entry
      by_cases same : name = other
      · simp [set, same]
      · by_cases before : name < other
        · simp [set, same, before]
        · simp [set, same, before, inductionHypothesis]

/-- An entry that is new goes without a trace. -/
theorem remove_set
    (missing : get? name map = none) (value : Value) :
    remove name (set name value map) = map := by
  induction map with
  | nil => simp [set, remove]
  | cons entry rest inductionHypothesis =>
      obtain ⟨other, old⟩ := entry
      rw [get?] at missing
      by_cases same : name = other
      · simp [same] at missing
      · rw [if_neg same] at missing
        by_cases before : name < other
        · simp [set, remove, same, before]
        · simp [set, remove, same, before, inductionHypothesis missing]

theorem mem_of_get?
    (found : get? name map = some value) :
    (name, value) ∈ map := by
  induction map with
  | nil => simp [get?] at found
  | cons entry rest inductionHypothesis =>
      obtain ⟨other, old⟩ := entry
      rw [get?] at found
      split at found
      next same =>
        rw [same, ← Option.some.inj found]
        exact List.mem_cons_self
      next different => exact List.mem_cons_of_mem _ (inductionHypothesis found)

theorem set_of_get?
    (ordered : Ordered map)
    (found : get? name map = some value) :
    set name value map = map := by
  induction map with
  | nil => simp [get?] at found
  | cons entry rest inductionHypothesis =>
      obtain ⟨other, old⟩ := entry
      obtain ⟨first, restOrdered⟩ := List.pairwise_cons.1 ordered
      rw [get?] at found
      by_cases same : name = other
      · rw [if_pos same, Option.some.injEq] at found
        rw [set, if_pos same, same, found]
      · rw [if_neg same] at found
        have after : other < name := first _ (mem_of_get? found)
        have notBefore : ¬ name < other := List.lt_asymm after
        rw [set, if_neg same, if_neg notBefore, inductionHypothesis restOrdered found]

theorem mem_set
    {entry : Text × Value}
    (member : entry ∈ set name value map) :
    entry = (name, value) ∨ entry ∈ map := by
  induction map with
  | nil => exact .inl (List.mem_singleton.1 member)
  | cons first rest inductionHypothesis =>
      obtain ⟨other, old⟩ := first
      rw [set] at member
      split at member
      next same => exact (List.mem_cons.1 member).imp_right (List.mem_cons_of_mem _)
      next different =>
        split at member
        next before => exact List.mem_cons.1 member
        next notBefore =>
          rcases List.mem_cons.1 member with rfl | later
          · exact .inr List.mem_cons_self
          · exact (inductionHypothesis later).imp_right (List.mem_cons_of_mem _)

theorem ordered_set
    (ordered : Ordered map) (name : Text) (value : Value) :
    Ordered (set name value map) := by
  induction map with
  | nil => exact List.pairwise_singleton _ _
  | cons entry rest inductionHypothesis =>
      obtain ⟨other, old⟩ := entry
      obtain ⟨first, restOrdered⟩ := List.pairwise_cons.1 ordered
      rw [set]
      split
      next same =>
        subst same
        exact List.pairwise_cons.2 ⟨first, restOrdered⟩
      next different =>
        split
        next before =>
          refine List.pairwise_cons.2 ⟨?_, ordered⟩
          rw [List.forall_mem_cons]
          exact ⟨before, fun later member => before.trans (first later member)⟩
        next notBefore =>
          have after : other < name := lt_of_le_of_ne (not_lt.1 notBefore) (Ne.symm different)
          refine List.pairwise_cons.2 ⟨fun later member => ?_, inductionHypothesis restOrdered⟩
          rcases mem_set member with rfl | old
          · exact after
          · exact first later old

theorem nodup_names
    (ordered : Ordered map) :
    (map.map Prod.fst).Nodup := by
  rw [List.Nodup, List.pairwise_map]
  exact ordered.imp fun before => before.ne

theorem mem_names_iff : name ∈ map.map Prod.fst ↔ (get? name map).isSome = true := by
  induction map with
  | nil => simp [get?]
  | cons entry rest inductionHypothesis =>
      obtain ⟨other, old⟩ := entry
      rw [List.map_cons, List.mem_cons, inductionHypothesis, get?]
      by_cases same : name = other <;> simp [same]

/-- The value of a name is the one that stands beside it. -/
theorem get?_of_mem
    (ordered : Ordered map)
    (member : (name, value) ∈ map) :
    get? name map = some value := by
  induction map with
  | nil => simp at member
  | cons entry rest inductionHypothesis =>
      obtain ⟨other, old⟩ := entry
      obtain ⟨first, restOrdered⟩ := List.pairwise_cons.1 ordered
      rw [get?]
      rcases List.mem_cons.1 member with same | later
      · obtain ⟨rfl, rfl⟩ := Prod.mk.inj same
        rw [if_pos rfl]
      · have after : other < name := first _ later
        rw [if_neg after.ne', inductionHypothesis restOrdered later]

theorem eq_of_get?
    {other : NameMap Value}
    (ordered : Ordered map)
    (orderedOther : Ordered other)
    (same : ∀ name, get? name map = get? name other) :
    map = other := by
  have nodup : ∀ {map : NameMap Value}, Ordered map → map.Nodup := fun ordered =>
    ordered.imp fun before same => before.ne (congrArg Prod.fst same)
  have members : ∀ entry, entry ∈ map ↔ entry ∈ other := by
    rintro ⟨name, value⟩
    constructor
    · intro member
      apply mem_of_get?
      rw [← same, get?_of_mem ordered member]
    · intro member
      apply mem_of_get?
      rw [same, get?_of_mem orderedOther member]
  apply List.Perm.eq_of_pairwise _ ordered orderedOther
  · exact (List.perm_ext_iff_of_nodup (nodup ordered) (nodup orderedOther)).2 members
  · exact fun first second _ _ before after => absurd before after.asymm

theorem get?_map
    {Value Other : Type} (change : Value → Other) (name : Text) (map : NameMap Value) :
    NameMap.get? name (map.map fun entry => (entry.1, change entry.2)) =
      (NameMap.get? name map).map change := by
  induction map with
  | nil => rfl
  | cons entry rest inductionHypothesis =>
      rw [List.map_cons, get?, get?, inductionHypothesis]
      split <;> rfl

end NameMap

end Upkeep
