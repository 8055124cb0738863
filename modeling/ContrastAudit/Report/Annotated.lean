import ContrastAudit.File.Path
import ContrastAudit.Report.Ratio
import ContrastAudit.Report.Summary

/-!
# Annotations

One line for every failing finding, in the form in which build services attach messages to lines of
files.  Files are named as they are seen from a root directory.

**Results.**
* `annotations_append`: the report of two lists of outcomes is the reports of both.
-/

namespace ContrastAudit.Report

/-- A file as it is seen from a root directory, both relative to the current directory.  A name
without characters is no file and stays. -/
def seenFrom (here : List String) (root file : String) : String :=
  if file = "" then ""
  else
    let absolute (text : String) : List String := ((Path.ofText text).absolute here).names
    (Path.relative (absolute root) (absolute file)).text

/-- The annotation of a finding in a file. -/
def annotationLine (here : List String) (root file : String) (finding : Finding) : String :=
  let pair := finding.pair
  let verdict := finding.verdict
  let (severity, level) :=
    if verdict.meets .aa then ("warning", Conformance.aaa) else ("error", Conformance.aa)
  let position := pair.element.position
  "::" ++ severity ++ " file=" ++ seenFrom here root file ++ ",line=" ++ toString position.line ++
    ",col=" ++ toString position.column ++ "::Contrast " ++ ratioText verdict.ratio ++ " fails " ++
    levelTitle level ++ " (requires " ++ requirement verdict.large level ++ "): " ++
    pair.foreground.written ++ " on " ++ pair.background.written ++ " (" ++
    pair.foreground.selector ++ ")"

/-- The annotations of all findings that fail a level. -/
def annotations (here : List String) (root : String) (level : Conformance)
    (outcomes : List Outcome) : List String :=
  outcomes.flatMap fun outcome =>
    (outcome.failing level).map (annotationLine here root outcome.file)

/-- The report of some outcomes. -/
def annotated (here : List String) (root : String) (level : Conformance)
    (outcomes : List Outcome) : String :=
  String.join ((annotations here root level outcomes).map (· ++ "\n"))

theorem annotations_append (here : List String) (root : String) (level : Conformance)
    (as bs : List Outcome) :
    annotations here root level (as ++ bs) =
      annotations here root level as ++ annotations here root level bs := by
  simp [annotations]

end ContrastAudit.Report
