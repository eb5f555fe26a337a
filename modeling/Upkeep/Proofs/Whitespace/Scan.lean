import Upkeep.Proofs.Source.Scan
import Upkeep.Proofs.Whitespace.Lines
import Upkeep.SymbolIndex

/-!
What the scanner reads from a text and from its normal form.  The two differ at most on the
lines that end in blanks behind a colon.
-/

namespace Upkeep

theorem filter_scan_normalizeText
    (content : Text) (asked : Nat → Bool)
    (solid : ∀ number line, (lines content)[number]? = some line →
      (classify (lines content))[number]? = some .code → asked number = true →
        stopsAtColon line = false) :
    (scan (normalizeText content)).filter (fun d => asked d.line) =
      (scan content).filter fun d => asked d.line := by
  obtain ⟨segments, tail, same, normal, _, blank⟩ := exists_segments content
  have bare : scan content = declarationsFrom false 0
      ((segments.map Segment.body).zip (classify (segments.map Segment.body))) := by
    rw [← declarationsFrom_append_blank_lines blank, ← same]
    rfl
  have normalized : scan (normalizeText content) = declarationsFrom false 0
      ((segments.map (·.normalize.close.body)).zip (classify (segments.map Segment.body))) := by
    rw [← classify_close_normalize, ← normal]
    rfl
  rw [bare, normalized]
  apply filter_declarationsFrom_map
  · exact fun segment _ => segment.trim_close_normalize
  intro index segment at_ code want
  have inside : index < (segments.map Segment.body).length := by
    rw [List.length_map]
    exact (List.getElem?_eq_some_iff.1 at_).1
  apply declaredBy_codeOf_of_trim_eq segment.trim_close_normalize Segment.trimStart_close_normalize
  apply solid index
  · rw [same, List.getElem?_append_left inside, List.getElem?_map, at_, Option.map_some]
  · rw [same, classify, classifyFrom_append, List.getElem?_append_left (by simpa using inside)]
    exact code
  · rwa [Nat.zero_add] at want

/-- A text and its normal form declare the same on all lines that do not end in blanks behind
a colon, and all the same if no line of code does. -/
theorem scan_normalizeText (content : Text) :
    (scan (normalizeText content)).filter
        (fun declaration => !(lines content)[declaration.line]?.any stopsAtColon) =
      (scan content).filter
        (fun declaration => !(lines content)[declaration.line]?.any stopsAtColon) ∧
    ((∀ (number : Nat) (line : Text), (lines content)[number]? = some line →
        (classify (lines content))[number]? = some LineKind.code →
          stopsAtColon line = false) →
      scan (normalizeText content) = scan content ∧
      ∀ index project, SymbolIndex.recordText index project (normalizeText content) =
        SymbolIndex.recordText index project content) := by
  constructor
  · apply filter_scan_normalizeText content fun number => !(lines content)[number]?.any stopsAtColon
    intro number line at_ _ want
    simpa [at_] using want
  · intro solid
    have same : scan (normalizeText content) = scan content := by
      have all := filter_scan_normalizeText content (fun _ => true)
        fun number line at_ code _ => solid number line at_ code
      rwa [List.filter_true, List.filter_true] at all
    refine ⟨same, fun index project => ?_⟩
    rw [SymbolIndex.recordText, same, SymbolIndex.recordText]

/-- A class with its base on the same line, and a last line of blanks. -/
def tabbedClass : Text :=
  "\tclass A : B \x7b \nusing C = int;\t\n ".toList

theorem scan_normalizeText_of_tabbedClass :
    (∀ line ∈ lines tabbedClass, stopsAtColon line = false) ∧
    scan (normalizeText tabbedClass) = scan tabbedClass ∧
    scan tabbedClass = [⟨"A".toList, .classType, 0⟩, ⟨"C".toList, .typeAlias, 1⟩] := by
  have plain : ∀ line ∈ lines tabbedClass, stopsAtColon line = false := by decide +kernel
  refine ⟨plain, ?_, by decide +kernel⟩
  apply ((scan_normalizeText tabbedClass).2 _).1
  exact fun number line at_ _ => plain line (List.mem_of_getElem? at_)

/-- A class with its base on the next line is declared as long as a blank follows the colon. -/
theorem scan_loses_class_at_colon :
    scan "class A : ".toList = [⟨"A".toList, .classType, 0⟩] ∧
    normalizeText "class A : ".toList = "class A :\n".toList ∧
    scan (normalizeText "class A : ".toList) = [] := by
  decide +kernel

end Upkeep
