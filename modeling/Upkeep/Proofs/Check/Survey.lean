import Upkeep.Check.Survey
import Upkeep.Proofs.Tree.Listed

/-!
The report of a check.  It sums up the listed files in the order of the list, unless an entry ends
the survey early, and missing projects leave no trace in it.
-/

namespace Upkeep

variable {check : Check} {tree : Tree} {listed : List Listed}

theorem Check.survey_withoutMissing (check : Check) (tree : Tree) (listed : List Listed) :
    check.survey tree (withoutMissing listed) =
      { check.survey tree listed with
        findings := (check.survey tree listed).findings.filter Finding.isChecked } := by
  induction listed with
  | nil => rfl
  | cons item rest inductionHypothesis =>
      cases item with
      | error error =>
          cases error with
          | missingRoot path =>
              rw [withoutMissing_missingRoot, inductionHypothesis]
              rfl
          | walk root fault => rfl
          | read path fault => rfl
          | write path fault => rfl
      | ok entry =>
          rw [withoutMissing_cons rfl, survey, survey]
          cases SourceFile.read tree entry.path with
          | error error => rfl
          | ok file =>
              simp only [inductionHypothesis]
              rfl

theorem CheckReport.ofFindings_filter_isChecked (findings : List Finding) :
    ofFindings (findings.filter Finding.isChecked) = ofFindings findings := by
  have warnings : (findings.filter Finding.isChecked).flatMap Finding.warnings =
      findings.flatMap Finding.warnings := by
    induction findings with
    | nil => rfl
    | cons finding rest inductionHypothesis =>
        cases finding with
        | skippedRoot path => exact inductionHypothesis
        | checked warnings =>
            rw [List.filter_cons_of_pos rfl, List.flatMap_cons, List.flatMap_cons,
              inductionHypothesis]
  rw [ofFindings, warnings, List.countP_filter]
  simp [ofFindings]

theorem Check.report_withoutMissing (check : Check) (tree : Tree) (listed : List Listed) :
    (check.survey tree (withoutMissing listed)).report = (check.survey tree listed).report := by
  rw [check.survey_withoutMissing, Survey.report, Survey.report]
  simp only [CheckReport.ofFindings_filter_isChecked]

theorem Check.error?_survey (check : Check) (tree : Tree) (listed : List Listed) :
    (check.survey tree listed).error? = listed.findSome? (blockage? tree) := by
  induction listed with
  | nil => rfl
  | cons item rest inductionHypothesis =>
      cases item with
      | error error => cases error <;> first | exact inductionHypothesis | rfl
      | ok entry =>
          rw [survey, List.findSome?_cons, blockage?]
          cases SourceFile.read tree entry.path with
          | error error => rfl
          | ok file => exact inductionHypothesis

/-- A survey fails at the first entry that does not let it go on. -/
theorem Check.report_eq_error_iff {error : SourceError} :
    (check.survey tree listed).report = .error error ↔
      ∃ front item back, listed = front ++ item :: back ∧
        blockage? tree item = some error ∧ ∀ before ∈ front, blockage? tree before = none := by
  rw [← List.findSome?_eq_some_iff, ← check.error?_survey, Survey.report]
  cases (check.survey tree listed).error? <;> simp

theorem CheckReport.ofFindings_checked (warnings : List Warning) (findings : List Finding) :
    ofFindings (.checked warnings :: findings) =
      ⟨warnings ++ (ofFindings findings).warnings, (ofFindings findings).filesChecked + 1⟩ := by
  rw [ofFindings, List.flatMap_cons, List.countP_cons_of_pos (by rfl)]
  rfl

/-- A survey that goes on to the end has read all listed files. -/
theorem Check.exists_files_of_error?
    (goesOn : (check.survey tree listed).error? = none) :
    ∃ files : List SourceFile, (pathsOf listed).map (SourceFile.read tree) = files.map .ok ∧
      CheckReport.ofFindings (check.survey tree listed).findings =
        ⟨files.flatMap (check.warnings tree), listed.countP Except.isOk⟩ := by
  induction listed with
  | nil => exact ⟨[], rfl, rfl⟩
  | cons item rest inductionHypothesis =>
      cases item with
      | error error =>
          cases error with
          | missingRoot path => 
              obtain ⟨files, reads, report⟩ := inductionHypothesis goesOn
              refine ⟨files, reads, ?_⟩
              rw [List.countP_cons_of_neg (by simp [Except.isOk, Except.toBool]), ← report]
              rfl
          | walk root fault => simp [survey] at goesOn
          | read path fault => simp [survey] at goesOn
          | write path fault => simp [survey] at goesOn
      | ok entry =>
          rw [survey] at goesOn ⊢
          cases read : SourceFile.read tree entry.path with
          | error error => simp [read] at goesOn
          | ok file =>
              simp only [read] at goesOn ⊢
              obtain ⟨files, reads, report⟩ := inductionHypothesis goesOn
              refine ⟨file :: files, ?_, ?_⟩
              · rw [pathsOf_ok, List.map_cons, reads, read, List.map_cons]
              · rw [Survey.after, CheckReport.ofFindings_checked, report,
                  List.countP_cons_of_pos (by rfl), List.flatMap_cons]

/-- A survey that finds no fault sums up its files in the order of the list. -/
theorem Check.report_eq_ok_iff {report : CheckReport} :
    (check.survey tree listed).report = .ok report ↔
      (∀ item ∈ listed, blockage? tree item = none) ∧
        ∃ files : List SourceFile, (pathsOf listed).map (SourceFile.read tree) = files.map .ok ∧
          report = ⟨files.flatMap (check.warnings tree), listed.countP Except.isOk⟩ := by
  rw [← List.findSome?_eq_none_iff, ← check.error?_survey, Survey.report]
  cases ended : (check.survey tree listed).error? with
  | some error => simp
  | none =>
      obtain ⟨files, reads, sum⟩ := Check.exists_files_of_error? ended
      simp only [Except.ok.injEq, true_and]
      constructor
      · rintro rfl
        exact ⟨files, reads, sum⟩
      · rintro ⟨others, readsToo, rfl⟩
        have same : files = others := by
          rw [reads] at readsToo
          exact (List.map_inj_right fun _ _ => Except.ok.inj).1 readsToo
        rw [← same, sum]

theorem Check.report_eq_of_withoutMissing
    {others : List Listed}
    (same : withoutMissing others = withoutMissing listed) :
    (check.survey tree others).report = (check.survey tree listed).report := by
  rw [← check.report_withoutMissing, same, check.report_withoutMissing]

end Upkeep
