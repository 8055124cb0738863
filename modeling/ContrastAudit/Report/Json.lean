import ContrastAudit.Config.Basic
import ContrastAudit.Json.Writer
import ContrastAudit.Report.Ratio
import ContrastAudit.Report.Summary

/-!
# Reports for machines

The report as a JSON document: all findings and problems of every file with their counts, and the
summary.  Ratios are rounded to two decimal places.
-/

namespace ContrastAudit.Report

/-- A natural number as a value. -/
def count (n : Nat) : Json :=
  .int n

/-- An element. -/
def elementJson (e : Element) : Json :=
  .object [("tag", .string e.features.tag), ("label", .string e.label),
    ("line", count e.position.line), ("column", count e.position.column)]

/-- One color of a pair. -/
def colorJson (info : ColorInfo) : Except NumericFault Json := do
  let hex ← match info.color with
    | none => pure .null
    | some color => Json.string <$> color.hex
  return .object [("original", .string info.written), ("hex", hex),
    ("source", .string info.source.name), ("selector", .string info.selector)]

/-- A finding. -/
def findingJson (finding : Finding) : Except NumericFault Json := do
  let pair := finding.pair
  let verdict := finding.verdict
  return .object [
    ("element", elementJson pair.element),
    ("foreground", ← colorJson pair.foreground),
    ("background", ← colorJson pair.background),
    ("ratio", .float (roundedRatio verdict.ratio)),
    ("meets_aa", .bool (verdict.meets .aa)),
    ("meets_aaa", .bool (verdict.meets .aaa)),
    ("level", .string verdict.standing.name),
    ("large_text", .bool verdict.large),
    ("font_size_px", pair.fontSize.elim .null .float),
    ("font_weight", pair.fontWeight.elim .null .int)]

/-- A problem. -/
def problemJson (problem : Problem) : Json :=
  .object ([("kind", .string problem.kind), ("message", .string problem.message)] ++
    problem.element?.toList.map fun e => ("element", elementJson e))

/-- The counts of a file. -/
def countsJson (counts : Counts) : Json :=
  .object [("elements_analyzed", count counts.elements), ("pairs_checked", count counts.pairs),
    ("ignored", count counts.ignored), ("passing", count counts.passing),
    ("aa_failing", count counts.failing), ("aaa_only_failing", count counts.aaaOnlyFailing),
    ("unresolvable", count counts.unresolved)]

/-- The outcome for a file. -/
def outcomeJson (outcome : Outcome) : Except NumericFault Json := do
  return .object [("file", .string outcome.file),
    ("results", .array (← outcome.findings.mapM findingJson)),
    ("errors", .array (outcome.problems.map problemJson)),
    ("stats", countsJson outcome.counts)]

/-- A summary. -/
def summaryJson (summary : Summary) : Json :=
  .object [("files", count summary.files), ("pairs_checked", count summary.pairs),
    ("ignored", count summary.ignored), ("passing", count summary.passing),
    ("failing", count summary.failing), ("warnings", count summary.warnings)]

/-- The report of some outcomes, without a line break at its end. -/
def json (level : Conformance) (outcomes : List Outcome) : Except NumericFault String := do
  return Json.pretty (.object [("level", .string level.name),
    ("files", .array (← outcomes.mapM outcomeJson)),
    ("summary", summaryJson (.of level outcomes))])

end ContrastAudit.Report
