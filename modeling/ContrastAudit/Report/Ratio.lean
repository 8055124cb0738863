import ContrastAudit.Contrast.Verdict
import ContrastAudit.Number.Decimal

/-!
# Ratios in reports

Every report that is meant for reading shows a ratio in the same way, and names the ratio that a
level requires by its shortest text.
-/

namespace ContrastAudit.Report

/-- A ratio to one, with one decimal place. -/
def ratioText (ratio : Float) : String :=
  Number.fixed 1 ratio ++ ":1"

/-- A ratio with the two decimal places that are kept of it. -/
def roundedRatio (ratio : Float) : Float :=
  Number.roundTo 2 ratio

/-- The ratio that a level requires, in words. -/
def requirement (large : Bool) : Conformance → String
  | .aa => if large then "3:1" else "4.5:1"
  | .aaa => if large then "4.5:1" else "7:1"

/-- The name of a level in headings. -/
def levelTitle : Conformance → String
  | .aa => "AA"
  | .aaa => "AAA"

end ContrastAudit.Report
