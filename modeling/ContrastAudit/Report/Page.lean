import ContrastAudit.Report.Html
import ContrastAudit.Report.Ratio
import ContrastAudit.Report.Summary

/-!
# Reports as pages

The report as one page: cards with the totals, and for every file a table of its findings, failing
ones first, and a list of its problems.  The page is a list of lines; whatever comes from a file is
a text in it.

**Results.**
* `perm_failingFirst`: sorting keeps all findings.
-/

namespace ContrastAudit.Report

/-- A line of a page. -/
abbrev Line := List Html

/-- The style rules of the page. -/
def pageStyle : List (String × List String) :=
  [("body", ["margin: 2rem", "font-family: system-ui, sans-serif", "color: #1f2937",
     "background: #f9fafb"]),
   ("h1", ["font-size: 1.5rem"]),
   ("h2", ["font-size: 1.1rem", "margin-top: 2rem", "word-break: break-all"]),
   (".cards", ["display: flex", "gap: 1rem", "flex-wrap: wrap"]),
   (".card", ["background: #fff", "border: 1px solid #e5e7eb", "border-radius: 8px",
     "padding: 1rem 1.5rem", "min-width: 8rem"]),
   (".card .value", ["font-size: 1.75rem", "font-weight: 700"]),
   (".card.fail .value", ["color: #b91c1c"]),
   (".card.pass .value", ["color: #15803d"]),
   ("table", ["width: 100%", "border-collapse: collapse", "background: #fff"]),
   ("th, td", ["text-align: left", "padding: .5rem .75rem", "border-bottom: 1px solid #e5e7eb",
     "vertical-align: top"]),
   ("tr.failing td:first-child", ["border-left: 4px solid #b91c1c"]),
   ("tr.passing td:first-child", ["border-left: 4px solid #15803d"]),
   (".swatch", ["display: inline-block", "width: 1rem", "height: 1rem",
     "border: 1px solid #d1d5db", "vertical-align: middle", "margin-right: .4rem"]),
   (".sample", ["padding: .25rem .5rem", "border-radius: 4px"]),
   (".muted", ["color: #4b5563", "font-size: .85rem"]),
   (".warnings li", ["color: #92400e"])]

/-- A style rule as a line. -/
def styleLine (rule : String × List String) : Line :=
  [.markup ("    " ++ rule.1 ++ " \x7b " ++ String.join (rule.2.map (· ++ "; ")) ++ "\x7d")]

/-- The lines up to the totals. -/
def headLines (level : Conformance) : List Line :=
  [[.markup "<!doctype html>"], [.markup "<html lang=\"en\">"], [.markup "<head>"],
   [.markup "  <meta charset=\"utf-8\">"],
   [.markup "  <meta name=\"viewport\" content=\"width=device-width, initial-scale=1\">"],
   [.markup "  <title>Contrast report (", .text (levelTitle level), .markup ")</title>"],
   [.markup "  <style>"]] ++
    pageStyle.map styleLine ++
  [[.markup "  </style>"], [.markup "</head>"], [.markup "<body>"],
   [.markup "  <h1>Contrast report <span class=\"muted\">WCAG ", .text (levelTitle level),
     .markup "</span></h1>"],
   []]

/-- A card with a total. -/
def card (kind title : String) (total : Nat) : Line :=
  [.markup ("    <div class=\"card" ++ kind ++ "\"><div class=\"muted\">" ++ title ++
      "</div><div class=\"value\">"),
   .text (toString total), .markup "</div></div>"]

/-- A card with a total, unless that is zero. -/
def cardIfAny (title : String) (total : Nat) : List Line :=
  if total = 0 then [] else [card "" title total]

/-- The lines of the totals. -/
def cardLines (summary : Summary) : List Line :=
  [[.markup "  <div class=\"cards\">"],
   card "" "Files analyzed" summary.files,
   card "" "Color pairs checked" summary.pairs,
   card " pass" "Passing" summary.passing,
   card " fail" "Failing" summary.failing] ++
    cardIfAny "Ignored" summary.ignored ++ cardIfAny "Warnings" summary.warnings ++
  [[.markup "  </div>"], []]

/-- The findings with failing ones first, in order otherwise. -/
def failingFirst (level : Conformance) (findings : List Finding) : List Finding :=
  findings.filter (·.fails level) ++ findings.filter fun finding => !finding.fails level

theorem perm_failingFirst (level : Conformance) (findings : List Finding) :
    (failingFirst level findings).Perm findings :=
  List.filter_append_perm _ _

/-- The hexadecimal text of a color. -/
def hexText (info : ColorInfo) : Except NumericFault String :=
  match info.color with
  | none => .ok "None"
  | some color => color.hex

/-- The cell of one color of a pair. -/
def colorCell (info : ColorInfo) (hex : String) : Line :=
  [.markup "          <td><span class=\"swatch\" style=\"background: ", .text hex,
   .markup "\"></span>", .text info.written, .markup "<div class=\"muted\">", .text info.selector,
   .markup "</div></td>"]

/-- The lines of a finding. -/
def rowLines (level : Conformance) (finding : Finding) : Except NumericFault (List Line) := do
  let pair := finding.pair
  let verdict := finding.verdict
  let foreground ← hexText pair.foreground
  let background ← hexText pair.background
  let large : Line := if verdict.large then [.markup " <span class=\"muted\">large</span>"] else []
  return [
    [.markup "        <tr class=\"", .text (if finding.fails level then "failing" else "passing"),
     .markup "\">"],
    [.markup "          <td><code>", .text pair.element.label,
     .markup "</code><div class=\"muted\">line ", .text (toString pair.element.position.line),
     .markup "</div></td>"],
    [.markup "          <td><span class=\"sample\" style=\"color: ", .text foreground,
     .markup "; background: ", .text background, .markup "\">Aa</span></td>"],
    colorCell pair.foreground foreground,
    colorCell pair.background background,
    [.markup "          <td>", .text (ratioText (roundedRatio verdict.ratio))] ++ large ++
      [.markup "</td>"],
    [.markup "          <td>", .text (ratioText (level.threshold verdict.large)), .markup "</td>"],
    [.markup "        </tr>"]]

/-- The lines of the findings of a file. -/
def tableLines (level : Conformance) (findings : List Finding) :
    Except NumericFault (List Line) := do
  if findings.isEmpty then
    return [[.markup "    <p class=\"muted\">No color pairs to analyze</p>"]]
  else
    let rows ← (failingFirst level findings).mapM (rowLines level)
    return [[.markup "    <table>"], [.markup "      <thead>"],
      [.markup ("        <tr><th>Element</th><th>Sample</th><th>Foreground</th>" ++
        "<th>Background</th><th>Ratio</th><th>Required</th></tr>")],
      [.markup "      </thead>"], [.markup "      <tbody>"]] ++ rows.flatten ++
      [[.markup "      </tbody>"], [.markup "    </table>"]]

/-- The line of a problem. -/
def warningLine (problem : Problem) : Line :=
  let place : Line := match problem.element? with
    | none => []
    | some e => [.markup "line ", .text (toString e.position.line), .markup ": "]
  [.markup "      <li>"] ++ place ++ [.text problem.message, .markup "</li>"]

/-- The lines of the problems of a file. -/
def warningLines (problems : List Problem) : List Line :=
  if problems.isEmpty then []
  else
    [[.markup "    <ul class=\"warnings\">"]] ++ problems.map warningLine ++
      [[.markup "    </ul>"]]

/-- The lines of a file. -/
def sectionLines (level : Conformance) (outcome : Outcome) : Except NumericFault (List Line) := do
  let table ← tableLines level outcome.findings
  return [[.markup "  <section>"],
    [.markup "    <h2>", .text outcome.file, .markup " <span class=\"muted\">",
     .text (toString (outcome.failing level).length), .markup " failing of ",
     .text (toString outcome.findings.length), .markup "</span></h2>"]] ++ table ++
    warningLines outcome.problems ++ [[.markup "  </section>"]]

/-- The lines of the report of some outcomes. -/
def pageLines (level : Conformance) (outcomes : List Outcome) :
    Except NumericFault (List Line) := do
  let sections ← outcomes.mapM (sectionLines level)
  return headLines level ++ cardLines (.of level outcomes) ++ sections.flatten ++
    [[.markup "</body>"], [.markup "</html>"]]

/-- The report of some outcomes, without a line break at its end. -/
def page (level : Conformance) (outcomes : List Outcome) : Except NumericFault String := do
  return Html.page ((← pageLines level outcomes).intersperse [.markup "\n"]).flatten

end ContrastAudit.Report
