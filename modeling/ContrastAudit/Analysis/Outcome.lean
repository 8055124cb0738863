import ContrastAudit.Pairing.Pair

/-!
# Outcomes

What the audit of one file comes to: its findings, which are pairs of colors with their verdicts,
the problems that kept it from more of them, and counts.

**Results.**
* `passing_add_failing`: a finding that is kept either passes or fails.
-/

namespace ContrastAudit

/-- A pair of colors with its verdict. -/
structure Finding where
  pair : ContrastPair
  verdict : Verdict
  deriving DecidableEq, Repr

/-- Whether a finding fails a level. -/
def Finding.fails (level : Conformance) (finding : Finding) : Bool :=
  !finding.verdict.meets level

/-- What kept an audit from a result: a file that cannot be read, for a reason in words, or a pair
with an unknown color. -/
inductive Problem
  | unreadable (reason : String)
  | unresolved (pair : ContrastPair)
  deriving DecidableEq, Repr

namespace Problem

/-- The name of the kind of a problem. -/
def kind : Problem → String
  | .unreadable _ => "parse-error"
  | .unresolved _ => "color-resolve-error"

/-- The problem in words. -/
def message : Problem → String
  | .unreadable reason => "Failed to parse file: " ++ reason
  | .unresolved pair =>
    "Could not resolve color: fg=" ++ pair.foreground.written ++ ", bg=" ++
      pair.background.written

/-- The element that a problem is about. -/
def element? : Problem → Option Element
  | .unreadable _ => none
  | .unresolved pair => some pair.element

/-- Whether a problem is one of the file as a whole. -/
def isUnreadable : Problem → Bool
  | .unreadable _ => true
  | .unresolved _ => false

/-- The problem with its kind and its place. -/
def text (problem : Problem) : String :=
  let place := match problem.element? with
    | none => ""
    | some e => " [" ++ e.label ++ " @ " ++ e.position.text ++ "]"
  problem.kind ++ place ++ ": " ++ problem.message

end Problem

/-- The counts of one file.  Pairs are counted with those that are ignored; what passes and fails is
counted without them. -/
structure Counts where
  elements : Nat := 0
  pairs : Nat := 0
  ignored : Nat := 0
  passing : Nat := 0
  failing : Nat := 0
  aaaOnlyFailing : Nat := 0
  unresolved : Nat := 0
  deriving DecidableEq, Repr

/-- The outcome for one file. -/
structure Outcome where
  file : String
  findings : List Finding := []
  problems : List Problem := []
  counts : Counts := {}
  deriving DecidableEq, Repr

namespace Outcome

/-- The outcome for a file that cannot be read. -/
def unreadable (file reason : String) : Outcome :=
  { file, problems := [.unreadable reason] }

/-- The outcome for a file with a number of elements, given the verdicts on its pairs and the test
for those to leave out. -/
def ofVerdicts (file : String) (elements : Nat) (isIgnored : ContrastPair → Bool)
    (verdicts : List (ContrastPair × Option Verdict)) : Outcome :=
  let found := verdicts.filterMap fun (pair, verdict) => verdict.map (Finding.mk pair)
  let problems := verdicts.filterMap fun (pair, verdict) =>
    if verdict.isNone then some (Problem.unresolved pair) else none
  let kept := found.filter fun finding => !isIgnored finding.pair
  { file
    findings := kept
    problems
    counts := {
      elements
      pairs := found.length
      ignored := found.length - kept.length
      passing := kept.countP fun f => f.verdict.meets .aa
      failing := kept.countP (·.fails .aa)
      aaaOnlyFailing := kept.countP fun f => f.verdict.meets .aa && f.fails .aaa
      unresolved := problems.length } }

/-- The findings that fail a level. -/
def failing (outcome : Outcome) (level : Conformance) : List Finding :=
  outcome.findings.filter (·.fails level)

theorem passing_add_failing (file : String) (elements : Nat) (isIgnored : ContrastPair → Bool)
    (verdicts : List (ContrastPair × Option Verdict)) :
    let outcome := ofVerdicts file elements isIgnored verdicts
    outcome.counts.passing + outcome.counts.failing = outcome.findings.length := by
  simp only [ofVerdicts, Finding.fails]
  rw [List.length_eq_countP_add_countP fun f : Finding => f.verdict.meets .aa]
  congr 2
  funext f
  cases f.verdict.meets .aa <;> rfl

end Outcome

end ContrastAudit
