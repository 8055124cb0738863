import ContrastAudit.Report.Ratio
import ContrastAudit.Report.Style
import ContrastAudit.Report.Summary

/-!
# Plain reports

The report for a terminal: for each file its failing findings, or all of them, and its problems, and
then a summary.  The styles can be left out.
-/

namespace ContrastAudit.Report

/-- How much a plain report shows: all findings instead of those that fail, and styles. -/
structure PlainOptions where
  all : Bool := false
  styled : Bool := true
  deriving DecidableEq, Repr

/-- A text in a style, if styles are shown. -/
def paint (styled : Bool) (style : Style) (text : String) : String :=
  if styled then style.apply text else text

/-- The tag of a finding and what it says about both levels, with their color. -/
def standingTexts (verdict : Verdict) : Ink × String × String :=
  match verdict.standing with
  | .pass => (.green, " PASS ", "AA ok  AAA ok")
  | .aaaOnlyFail => (.yellow, " AA   ", "AA ok  AAA fails")
  | .aaFail => (.red, " FAIL ", "AA requires " ++ requirement verdict.large .aa)

/-- The line of a finding. -/
def findingLine (styled : Bool) (finding : Finding) : String :=
  let paint := paint styled
  let faint : Style := { dim := true }
  let pair := finding.pair
  let verdict := finding.verdict
  let (ink, tag, standing) := standingTexts verdict
  let ratioInk : Ink := if verdict.meets .aa then .green else .red
  "  " ++ paint { ink, bold := true } tag ++
    " " ++ paint faint pair.foreground.selector ++
    "  " ++ paint faint ("L" ++ toString pair.element.position.line) ++
    "  " ++ pair.foreground.written ++ " " ++ paint faint "on" ++ " " ++ pair.background.written ++
    "  ->  " ++ paint { ink := ratioInk } (ratioText verdict.ratio) ++
    "  (" ++ paint { ink } standing ++ ")" ++
    (if verdict.large then paint faint " [large]" else "")

/-- The line of a problem. -/
def problemLine (styled : Bool) (problem : Problem) : String :=
  let place := match problem.element? with
    | none => ""
    | some e => paint styled { dim := true } ("L" ++ toString e.position.line)
  "  " ++ paint styled { ink := some .yellow, bold := true } " WARN " ++ " " ++ place ++ "  " ++
    problem.message

/-- The lines of one outcome. -/
def outcomeLines (options : PlainOptions) (level : Conformance) (outcome : Outcome) : List String :=
  let shown := if options.all then outcome.findings else outcome.failing level
  [paint options.styled { ink := some .cyan, bold := true } outcome.file] ++
    shown.map (findingLine options.styled) ++ outcome.problems.map (problemLine options.styled) ++
    (if outcome.findings.isEmpty && outcome.problems.isEmpty then ["  No color pairs to analyze"]
      else []) ++
    [""]

/-- The lines of a summary. -/
def summaryLines (level : Conformance) (summary : Summary) : List String :=
  let warnings := "Warnings: " ++ toString summary.warnings
  ["Summary:", "  Files analyzed: " ++ toString summary.files,
    "  Color pairs checked: " ++ toString summary.pairs] ++
    (if summary.ignored = 0 then [] else ["  Ignored: " ++ toString summary.ignored]) ++
    (if summary.failing ≠ 0 then
      ["  Passing: " ++ toString summary.passing ++ " | Failing: " ++ toString summary.failing ++
        (if summary.warnings = 0 then "" else " | " ++ warnings)]
    else
      (if summary.pairs = 0 then []
        else ["  All " ++ toString summary.passing ++ " pairs pass " ++ levelTitle level ++ "!"]) ++
      (if summary.warnings = 0 then [] else ["  " ++ warnings]))

/-- The report of some outcomes. -/
def plain (options : PlainOptions) (level : Conformance) (outcomes : List Outcome) : String :=
  "\n".intercalate ("" :: outcomes.flatMap (outcomeLines options level) ++
    summaryLines level (.of level outcomes)) ++ "\n"

end ContrastAudit.Report
