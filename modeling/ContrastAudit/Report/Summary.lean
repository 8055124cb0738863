import ContrastAudit.Analysis.Outcome

/-!
# Summaries

The totals of several outcomes.

**Results.**
* `of_append`: totals of two lists of outcomes add up.
-/

namespace ContrastAudit.Report

/-- The totals of some outcomes. -/
structure Summary where
  files : Nat := 0
  pairs : Nat := 0
  ignored : Nat := 0
  passing : Nat := 0
  failing : Nat := 0
  warnings : Nat := 0
  deriving DecidableEq, Repr

namespace Summary

/-- Two summaries together. -/
def add (a b : Summary) : Summary :=
  ⟨a.files + b.files, a.pairs + b.pairs, a.ignored + b.ignored, a.passing + b.passing,
    a.failing + b.failing, a.warnings + b.warnings⟩

/-- The summary of one outcome; what passes and fails depends on the level. -/
def ofOutcome (level : Conformance) (outcome : Outcome) : Summary where
  files := 1
  pairs := outcome.counts.pairs
  ignored := outcome.counts.ignored
  passing := outcome.findings.length - (outcome.failing level).length
  failing := (outcome.failing level).length
  warnings := outcome.problems.length

/-- The summary of some outcomes. -/
def of (level : Conformance) : List Outcome → Summary
  | [] => {}
  | outcome :: outcomes => (ofOutcome level outcome).add (of level outcomes)

theorem of_append (level : Conformance) (as bs : List Outcome) :
    of level (as ++ bs) = (of level as).add (of level bs) := by
  induction as with
  | nil => simp [of, add]
  | cons a as ih => simp [of, ih, add, Nat.add_assoc]

end Summary

end ContrastAudit.Report
