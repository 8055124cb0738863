import ContrastAudit.Proofs.File.Place
import ContrastAudit.Proofs.Report.Rows
import ContrastAudit.Proofs.Stylesheet.Linked

/-!
# Annotations and lines

An annotation is meant to be one line.  All of it that is made up by the report stays on its line,
the name of the file included; the two colors and the selector, however, are shown as they are
written, and may go over several lines there.  What follows a line break in them is a line of its
own for the reader of the report, whatever it says.

**Results.**
* `count_annotationLine`: the line breaks of an annotation are those of the texts it shows.
* `writtenLines_annotated_iff`: the lines of a report are the annotations of its failing findings
  exactly if none of these texts has a line break; each line break makes one line more.
* `exists_forged`: a selector of a document forges the annotation of another file.
-/

namespace ContrastAudit

/-! ## Texts on one line -/

namespace Number

theorem not_mem_toDigits (n : ℕ) : '\n' ∉ Nat.toDigits 10 n := fun h =>
  absurd (Nat.isDigit_of_mem_toDigits (by decide) (by decide) h) (by decide)

theorem not_mem_withPoint {places : ℕ} {cs : List Char} (h : '\n' ∉ cs) :
    '\n' ∉ withPoint places cs := by
  have hpadded : '\n' ∉ padded (places + 1) cs := by
    rw [padded, List.mem_append, not_or]
    exact ⟨fun hzero => absurd (List.eq_of_mem_replicate hzero) (by decide), h⟩
  unfold withPoint
  split
  · exact h
  · dsimp only
    rw [List.mem_append, List.mem_cons, not_or, not_or]
    exact ⟨mt List.mem_of_mem_take hpadded, by decide, mt List.mem_of_mem_drop hpadded⟩

/-- A number is written on one line. -/
theorem not_mem_fixed (places : ℕ) (x : Float) : '\n' ∉ (fixed places x).toList := by
  have hsign : ∀ negative, '\n' ∉ sign negative := by decide
  unfold fixed
  split
  · rw [String.toList_ofList, List.mem_append, not_or]
    exact ⟨hsign _, not_mem_withPoint (not_mem_toDigits _)⟩
  · rw [String.toList_ofList, List.mem_append, not_or]
    exact ⟨hsign _, by decide⟩
  · decide

end Number

namespace Path

/-- What two places have in common is at least what the one takes from the other. -/
theorem length_take_le_shared (start rest : List String) (k : ℕ) :
    (start.take k).length ≤ relative.shared start (start.take k ++ rest) := by
  induction start generalizing k with
  | nil => rw [List.take_nil]; exact Nat.zero_le _
  | cons name names ih =>
      cases k with
      | zero => exact Nat.zero_le _
      | succ k =>
          rw [List.take_succ_cons, List.cons_append, relative.shared, if_pos rfl, List.length_cons]
          exact Nat.succ_le_succ (ih k)

/-- An absolute path takes up the current directory, up to some place, and the names of the path. -/
theorem exists_names_absolute (here : List String) (p : Path) :
    ∃ (k : ℕ) (rest : List String),
      (p.absolute here).names = (walk [] here).take k ++ rest ∧ rest ⊆ p.names := by
  rw [names_absolute]
  split
  · rw [walk_append]
    exact exists_walk_eq _ _
  · obtain ⟨k, rest, hwalk, hrest⟩ := exists_walk_eq [] p.names
    refine ⟨0, rest, ?_, hrest⟩
    rw [hwalk, List.take_nil, List.take_zero]

/-- A path as it is seen from the current directory has names of its own only. -/
theorem mem_names_relative_absolute {here : List String} {p : Path} {name : String}
    (h : name ∈ (relative (walk [] here) (p.absolute here).names).names) :
    name = ".." ∨ name ∈ p.names := by
  obtain ⟨k, rest, habsolute, hrest⟩ := exists_names_absolute here p
  rw [relative, habsolute] at h
  refine (List.mem_append.1 h).imp List.eq_of_mem_replicate fun hname => hrest ?_
  rw [List.drop_append, List.drop_eq_nil_of_le (length_take_le_shared _ rest k),
    List.nil_append] at hname
  exact List.mem_of_mem_drop hname

theorem not_mem_text {names : List String} (h : ∀ name ∈ names, '\n' ∉ name.toList) :
    '\n' ∉ (text ⟨0, names⟩).toList := by
  unfold text
  split
  · decide
  · rw [String.toList_append, toList_intercalate_slash, List.replicate_zero, String.toList_ofList,
      List.nil_append]
    intro hbreak
    rcases Text.mem_join hbreak with hslash | ⟨cs, hcs, hbreak⟩
    · exact absurd hslash (by decide)
    · obtain ⟨name, hname, rfl⟩ := List.mem_map.1 hcs
      exact h name hname hbreak

end Path

namespace Report

/-- The name of a file is shown on one line, wherever the current directory is. -/
theorem not_mem_seenFrom (here : List String) {file : String} (h : '\n' ∉ file.toList) :
    '\n' ∉ (seenFrom here "" file).toList := by
  have hnames : ∀ name ∈ (Path.ofText file).names, '\n' ∉ name.toList := fun name hname hbreak =>
    h ((Text.infix_of_mem_pieces (Path.mem_pieces_of_mem_names hname)).subset hbreak)
  have hroot : ((Path.ofText "").absolute here).names = Path.walk [] here := by
    rw [Path.names_absolute]
    exact congrArg (Path.walk []) (List.append_nil here)
  unfold seenFrom
  split
  · exact List.not_mem_nil
  · dsimp only
    rw [hroot]
    refine Path.not_mem_text fun name hname => ?_
    rcases Path.mem_names_relative_absolute hname with rfl | hname
    · decide
    · exact hnames name hname

/-! ## Annotations -/

/-- What an annotation shows between its file and its colors. -/
def middle (level : Conformance) (finding : Finding) : List Char :=
  ",line=".toList ++ (toString finding.pair.element.position.line).toList ++ ",col=".toList ++
    (toString finding.pair.element.position.column).toList ++ "::Contrast ".toList ++
    (ratioText finding.verdict.ratio).toList ++ " fails ".toList ++ (levelTitle level).toList ++
    " (requires ".toList ++ (requirement finding.verdict.large level).toList ++ "): ".toList

/-- The colors and the selector of an annotation, as they are written. -/
def quotation (finding : Finding) : List Char :=
  finding.pair.foreground.written.toList ++ " on ".toList ++
    finding.pair.background.written.toList ++ " (".toList ++
    finding.pair.foreground.selector.toList ++ ")".toList

/-- The line breaks in the texts of a document that an annotation shows. -/
def shownBreaks (finding : Finding) : ℕ :=
  finding.pair.foreground.written.toList.count '\n' +
    finding.pair.background.written.toList.count '\n' +
    finding.pair.foreground.selector.toList.count '\n'

/-- Whether a line begins as annotations do. -/
def OpensAnnotation (line : List Char) : Prop :=
  "::error file=".toList <+: line ∨ "::warning file=".toList <+: line

section Annotations

variable (here : List String) (root : String) {file : String} (finding : Finding)

theorem not_mem_middle (level : Conformance) :
    '\n' ∉ middle level finding := by
  have hnat : ∀ n : ℕ, '\n' ∉ (toString n).toList := fun n => by
    rw [Nat.toString_eq_ofList_toDigits, String.toList_ofList]
    exact Number.not_mem_toDigits n
  have hratio : '\n' ∉ (ratioText finding.verdict.ratio).toList := by
    rw [ratioText, String.toList_append, List.mem_append, not_or]
    exact ⟨Number.not_mem_fixed _ _, by decide⟩
  have htitle : '\n' ∉ (levelTitle level).toList := by cases level <;> decide
  have hrequired : '\n' ∉ (requirement finding.verdict.large level).toList := by
    cases level <;> cases finding.verdict.large <;> decide
  unfold middle
  simp only [List.mem_append, not_or]
  exact ⟨⟨⟨⟨⟨⟨⟨⟨⟨⟨by decide, hnat _⟩, by decide⟩, hnat _⟩, by decide⟩, hratio⟩, by decide⟩, htitle⟩,
    by decide⟩, hrequired⟩, by decide⟩

theorem exists_toList_annotationLine (file : String) :
    ∃ opening ∈ ["::error file=", "::warning file="], ∃ level,
      (annotationLine here root file finding).toList =
        opening.toList ++ (seenFrom here root file).toList ++ middle level finding ++
          quotation finding := by
  have herror : "::error file=".toList = "::".toList ++ ("error".toList ++ " file=".toList) := by
    decide
  have hwarning : "::warning file=".toList =
      "::".toList ++ ("warning".toList ++ " file=".toList) := by
    decide
  cases hmeets : finding.verdict.meets .aa with
  | false =>
      have hline : (annotationLine here root file finding).toList = "::error file=".toList ++
          (seenFrom here root file).toList ++ middle .aa finding ++ quotation finding := by
        unfold annotationLine middle quotation
        simp only [hmeets, Bool.false_eq_true, if_false, String.toList_append, herror,
          List.append_assoc]
      exact ⟨_, List.mem_cons_self, .aa, hline⟩
  | true =>
      have hline : (annotationLine here root file finding).toList = "::warning file=".toList ++
          (seenFrom here root file).toList ++ middle .aaa finding ++ quotation finding := by
        unfold annotationLine middle quotation
        simp only [hmeets, if_true, String.toList_append, hwarning, List.append_assoc]
      exact ⟨_, List.mem_cons_of_mem _ List.mem_cons_self, .aaa, hline⟩

theorem opensAnnotation_annotationLine (file : String) :
    OpensAnnotation (annotationLine here root file finding).toList := by
  obtain ⟨opening, hopening, level, hline⟩ :=
    exists_toList_annotationLine here root finding file
  have hprefix : opening.toList <+: (annotationLine here root file finding).toList := by
    rw [hline, List.append_assoc, List.append_assoc]
    exact List.prefix_append _ _
  simp only [List.mem_cons, List.not_mem_nil, or_false] at hopening
  rcases hopening with rfl | rfl
  · exact .inl hprefix
  · exact .inr hprefix

/-- The line breaks of an annotation are those of the texts of the document that it shows. -/
theorem count_annotationLine (h : '\n' ∉ file.toList) :
    (annotationLine here "" file finding).toList.count '\n' = shownBreaks finding := by
  obtain ⟨opening, hopening, level, hline⟩ :=
    exists_toList_annotationLine here "" finding file
  have hbreaks : opening.toList.count '\n' = 0 := by
    simp only [List.mem_cons, List.not_mem_nil, or_false] at hopening
    rcases hopening with rfl | rfl <;> decide
  have hquotation : (quotation finding).count '\n' = shownBreaks finding := by
    have hon : (" on ".toList).count '\n' = 0 := by decide
    have hleft : (" (".toList).count '\n' = 0 := by decide
    have hright : (")".toList).count '\n' = 0 := by decide
    simp only [quotation, List.count_append, hon, hleft, hright, Nat.add_zero, shownBreaks]
  rw [hline, List.count_append, List.count_append, List.count_append, hbreaks,
    List.count_eq_zero.2 (not_mem_seenFrom here h), List.count_eq_zero.2 (not_mem_middle _ _),
    hquotation]
  omega

end Annotations

/-! ## Reports -/

/-- The findings that fail a level, each with its file. -/
def failures (level : Conformance) (outcomes : List Outcome) : List (String × Finding) :=
  outcomes.flatMap fun outcome => (outcome.failing level).map (outcome.file, ·)

/-- The lines of a text whose lines all end in a line break. -/
def writtenLines (text : String) : List (List Char) :=
  (Text.pieces '\n' text.toList).dropLast

/-- A line is the annotation of a finding in a file. -/
structure Annotates (here : List String) (failure : String × Finding) (line : List Char) :
    Prop where
  opens : OpensAnnotation line
  text : line = (annotationLine here "" failure.1 failure.2).toList

section Reports

variable {level : Conformance} {outcomes : List Outcome}

theorem annotations_eq_map (here : List String) (root : String) :
    annotations here root level outcomes =
      (failures level outcomes).map fun failure =>
        annotationLine here root failure.1 failure.2 := by
  rw [annotations, failures, List.map_flatMap]
  simp only [List.map_map]
  rfl

theorem length_failures :
    (failures level outcomes).length = (Summary.of level outcomes).failing := by
  rw [failing_of, failures, List.length_flatMap]
  simp only [List.length_map]

theorem exists_of_mem_failures {failure : String × Finding}
    (h : failure ∈ failures level outcomes) : ∃ outcome ∈ outcomes, outcome.file = failure.1 := by
  obtain ⟨outcome, houtcome, hfailure⟩ := List.mem_flatMap.1 h
  obtain ⟨finding, -, rfl⟩ := List.mem_map.1 hfailure
  exact ⟨outcome, houtcome, rfl⟩

/-- The lines of a report are those of its annotations, one after the other. -/
theorem writtenLines_annotated (here : List String) (root : String) :
    writtenLines (annotated here root level outcomes) =
      (failures level outcomes).flatMap fun failure =>
        Text.pieces '\n' (annotationLine here root failure.1 failure.2).toList := by
  have hlines : (annotated here root level outcomes).toList =
      ((failures level outcomes).map fun failure =>
        (annotationLine here root failure.1 failure.2).toList).flatMap (· ++ ['\n']) := by
    rw [annotated, String.toList_join, annotations_eq_map, List.map_map, List.flatMap_map,
      List.flatMap_map]
    simp only [Function.comp_apply, String.toList_append]
    rfl
  rw [writtenLines, hlines, Text.pieces_flatMap_terminated, List.dropLast_concat, List.flatMap_map]

/-- Each line break in a text that is shown makes one line more. -/
theorem length_writtenLines_annotated (here : List String) (level : Conformance)
    (hfiles : ∀ outcome ∈ outcomes, '\n' ∉ outcome.file.toList) :
    (writtenLines (annotated here "" level outcomes)).length =
      (Summary.of level outcomes).failing +
        ((failures level outcomes).map fun failure => shownBreaks failure.2).sum := by
  have hpieces : ∀ failure ∈ failures level outcomes,
      (Text.pieces '\n' (annotationLine here "" failure.1 failure.2).toList).length =
        1 + shownBreaks failure.2 := by
    intro failure hfailure
    obtain ⟨outcome, houtcome, hfile⟩ := exists_of_mem_failures hfailure
    rw [Text.length_pieces, count_annotationLine here failure.2 (hfile ▸ hfiles outcome houtcome),
      Nat.add_comm]
  rw [writtenLines_annotated, List.length_flatMap, List.map_congr_left hpieces, ← length_failures]
  generalize failures level outcomes = shown
  induction shown with
  | nil => rfl
  | cons failure rest ih =>
      simp only [List.map_cons, List.sum_cons, List.length_cons, ih]
      omega

theorem forall₂_annotates (here : List String)
    (hfiles : ∀ outcome ∈ outcomes, '\n' ∉ outcome.file.toList)
    (hbreaks : ∀ failure ∈ failures level outcomes, shownBreaks failure.2 = 0) :
    List.Forall₂ (Annotates here) (failures level outcomes)
      (writtenLines (annotated here "" level outcomes)) := by
  have hpieces : ∀ failure ∈ failures level outcomes,
      Text.pieces '\n' (annotationLine here "" failure.1 failure.2).toList =
        [(annotationLine here "" failure.1 failure.2).toList] := by
    intro failure hfailure
    obtain ⟨outcome, houtcome, hfile⟩ := exists_of_mem_failures hfailure
    have hcount := count_annotationLine here failure.2 (hfile ▸ hfiles outcome houtcome)
    rw [hbreaks failure hfailure] at hcount
    exact Text.pieces_of_not_mem (List.count_eq_zero.1 hcount)
  rw [writtenLines_annotated, List.flatMap_congr hpieces, ← List.map_eq_flatMap,
    List.forall₂_map_right_iff, List.forall₂_same]
  exact fun failure _ => ⟨opensAnnotation_annotationLine here "" failure.2 failure.1, rfl⟩

end Reports

/-- The lines of a report are the annotations of its failing findings, in order, exactly if no text
that these show has a line break; otherwise there is one line more for each line break. -/
theorem writtenLines_annotated_iff (here : List String) (level : Conformance)
    {outcomes : List Outcome} (hfiles : ∀ outcome ∈ outcomes, '\n' ∉ outcome.file.toList) :
    (failures level outcomes).length = (Summary.of level outcomes).failing ∧
    (writtenLines (annotated here "" level outcomes)).length =
      (Summary.of level outcomes).failing +
        ((failures level outcomes).map fun failure => shownBreaks failure.2).sum ∧
    ((∀ failure ∈ failures level outcomes, shownBreaks failure.2 = 0) ↔
      List.Forall₂ (Annotates here) (failures level outcomes)
        (writtenLines (annotated here "" level outcomes))) := by
  have hlength := length_writtenLines_annotated here level hfiles
  refine ⟨length_failures, hlength, forall₂_annotates here hfiles, fun hlines => ?_⟩
  have hsum : ((failures level outcomes).map fun failure => shownBreaks failure.2).sum = 0 := by
    have hcount := hlines.length_eq
    rw [length_failures] at hcount
    omega
  intro failure hfailure
  exact List.sum_eq_zero_iff.1 hsum _ (List.mem_map_of_mem hfailure)

/-- An outcome with one failing finding, which is found with a selector. -/
def blackOnBlack (selector : String) : Outcome :=
  let info : ColorInfo := ⟨"#000", some .black, .stylesheet, selector, none⟩
  let element : Element := { features := { tag := "p" }, index := 0, parent := none }
  let pair : ContrastPair := { element, foreground := info, background := info }
  { file := "page.html", findings := [⟨pair, ⟨1.0, false⟩⟩] }

theorem writtenLines_annotated_iff_blackOnBlack :
    (∀ outcome ∈ [blackOnBlack "p"], '\n' ∉ outcome.file.toList) ∧
    List.Forall₂ (Annotates ["site"]) (failures .aa [blackOnBlack "p"])
      (writtenLines (annotated ["site"] "" .aa [blackOnBlack "p"])) ∧
    (∀ outcome ∈ [blackOnBlack "p:is(\n)"], '\n' ∉ outcome.file.toList) ∧
    (writtenLines (annotated ["site"] "" .aa [blackOnBlack "p:is(\n)"])).length =
      (Summary.of .aa [blackOnBlack "p:is(\n)"]).failing + 1 := by
  have hplain : ∀ outcome ∈ [blackOnBlack "p"], '\n' ∉ outcome.file.toList := by decide
  have hbroken : ∀ outcome ∈ [blackOnBlack "p:is(\n)"], '\n' ∉ outcome.file.toList := by decide
  obtain ⟨-, -, hlines⟩ := writtenLines_annotated_iff ["site"] .aa hplain
  obtain ⟨-, hlength, -⟩ := writtenLines_annotated_iff ["site"] .aa hbroken
  have hone : ((failures .aa [blackOnBlack "p:is(\n)"]).map
      fun failure => shownBreaks failure.2).sum = 1 := by
    decide +kernel
  rw [hone] at hlength
  exact ⟨hplain, hlines.1 (by decide +kernel), hbroken, hlength⟩

/-- A page that is audited, with a line break in a selector. -/
def forgery : String :=
  "<style>p:is(\n::error file=forged.html,line=1,col=1::forged\n)\x7bcolor:#000;" ++
    "background:#000\x7d</style>\n<p>x</p>"

/-- A failing finding of a page forges a second annotation, of a file that does not exist. -/
theorem exists_forged :
    ∃ outcome, ({} : Auditor).auditText { here := [] } forgery "page.html" {} = .ok outcome ∧
      (Summary.of .aa [outcome]).failing = 1 ∧
      (writtenLines (annotated [] "" .aa [outcome])).length = 3 ∧
      "::error file=forged.html,line=1,col=1::forged".toList ∈
        writtenLines (annotated [] "" .aa [outcome]) := by
  have hpage : ∃ page, Markup.Page.parse forgery = .ok page ∧
      page.linked ++ page.sheet.imports = [] ∧
      ∃ pairs, (Auditor.styling {} page {}).pairs page.document = .ok pairs ∧
        ∃ verdicts, (pairs.mapM fun pair =>
            return (pair, ← pair.evaluate.mapError AuditError.numeric)) = .ok verdicts ∧
          let outcome := Outcome.ofVerdicts "page.html" page.document.size
            (Auditor.ignore {}).ignores verdicts
          (Summary.of .aa [outcome]).failing = 1 ∧
            (writtenLines (annotated [] "" .aa [outcome])).length = 3 ∧
            "::error file=forged.html,line=1,col=1::forged".toList ∈
              writtenLines (annotated [] "" .aa [outcome]) := by
    decide +kernel
  obtain ⟨page, hpage, hlinks, pairs, hpairs, verdicts, hverdicts, hforged⟩ := hpage
  refine ⟨_, ?_, hforged⟩
  rw [Auditor.auditText, hpage]
  dsimp only
  rw [Auditor.auditPage, hlinks, Stylesheet.loadLinked_nil]
  exact bind_eq_ok_iff.2 ⟨_, rfl, bind_eq_ok_iff.2 ⟨_, mapError_eq_ok_iff.2 hpairs,
    bind_eq_ok_iff.2 ⟨_, hverdicts, rfl⟩⟩⟩

end Report

end ContrastAudit
