import ContrastAudit.Contrast.Font
import ContrastAudit.Contrast.Ratio

/-!
# Verdicts

How a contrast ratio stands to the two levels of conformance: 4.5 and 7 for normal text, 3 and 4.5
for large text.

**Results.**
* `standing_eq_pass_iff`: a pair passes exactly if it meets the stricter level.
-/

namespace ContrastAudit

/-- The levels of conformance. -/
inductive Conformance
  | aa
  | aaa
  deriving DecidableEq, Repr

/-- The ratio that a level requires. -/
def Conformance.threshold (large : Bool) : Conformance → Float
  | .aa => if large then 3.0 else 4.5
  | .aaa => if large then 4.5 else 7.0

/-- The standing of one pair of colors. -/
inductive Standing
  | pass
  | aaaOnlyFail
  | aaFail
  deriving DecidableEq, Repr

/-- The name of a standing. -/
def Standing.name : Standing → String
  | .pass => "pass"
  | .aaaOnlyFail => "aaa-only-fail"
  | .aaFail => "aa-fail"

/-- The standing that follows from the two tests. -/
def Standing.ofTests (meetsAa meetsAaa : Bool) : Standing :=
  if meetsAaa then .pass else if meetsAa then .aaaOnlyFail else .aaFail

/-- The outcome for one pair of colors. -/
structure Verdict where
  ratio : Float
  large : Bool
  deriving Repr, DecidableEq

namespace Verdict

/-- Whether the pair meets a level. -/
def meets (verdict : Verdict) (level : Conformance) : Bool :=
  level.threshold verdict.large ≤ verdict.ratio

/-- The standing of the pair. -/
def standing (verdict : Verdict) : Standing :=
  .ofTests (verdict.meets .aa) (verdict.meets .aaa)

/-- The verdict on text of a color on a background. -/
def ofColors (foreground background : Color) (size : Option Float) (weight : Option Int) :
    Except NumericFault Verdict := do
  return ⟨← contrastRatio foreground background, Font.isLarge size weight⟩

theorem standing_eq_pass_iff {verdict : Verdict} :
    verdict.standing = .pass ↔ verdict.meets .aaa = true := by
  unfold standing Standing.ofTests
  split
  · simp_all
  · split <;> simp_all

end Verdict

end ContrastAudit
