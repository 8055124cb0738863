import ContrastAudit.Analysis.Auditor
import ContrastAudit.Proofs.Pairing.Opacity

/-!
# Outcomes that balance

The counts of an outcome are taken at several places: of the pairs with a verdict before and after
the ignored ones are left out, of the pairs without a verdict, and of the elements.  For whatever
text an audit has an outcome, these counts fit each other and the pairs of the page.

**Results.**
* `isUnclosed_of_split`, `neverUnclosed_parse`: a page fails the way an unclosed frontmatter does
  only if it has one.
* `auditText_of_unclosed`: a text with one has the outcome of a file that cannot be read.
* `exists_balances`: the outcome of any other text balances.
* `findings_of_auditPage`: the findings of a page are about its pairs with known colors, less the
  ignored ones, and each holds the verdict on its pair.
-/

namespace ContrastAudit

/-! ## Errors of scanning -/

namespace Markup

/-- A computation that does not fail the way an unclosed frontmatter does. -/
def NeverUnclosed {α : Type} (x : Except MarkupError α) : Prop :=
  ∀ error, x = .error error → error.isUnclosed = false

namespace NeverUnclosed

variable {α β : Type}

theorem ok (a : α) : NeverUnclosed (.ok a) := by
  intro error h
  contradiction

theorem error {e : MarkupError} (h : e.isUnclosed = false) :
    @NeverUnclosed α (.error e) := by
  rintro _ ⟨⟩
  exact h

theorem bind {x : Except MarkupError α} {f : α → Except MarkupError β} (hx : NeverUnclosed x)
    (hf : ∀ a, NeverUnclosed (f a)) : NeverUnclosed (x >>= f) := by
  cases x with
  | error error =>
      rintro _ ⟨⟩
      exact hx error rfl
  | ok a => exact hf a

theorem map {x : Except MarkupError α} (hx : NeverUnclosed x) (f : α → β) :
    NeverUnclosed (x.map f) :=
  hx.bind fun a => ok (f a)

theorem mapM {f : α → Except MarkupError β} (hf : ∀ a, NeverUnclosed (f a)) (as : List α) :
    NeverUnclosed (as.mapM f) := by
  induction as with
  | nil => exact ok []
  | cons a as ih =>
      rw [List.mapM_cons]
      exact (hf a).bind fun b => ih.bind fun bs => ok (b :: bs)

end NeverUnclosed

namespace Construct

theorem neverUnclosed_ofText (cs : List Char) : NeverUnclosed (ofText cs) := by
  unfold ofText
  split
  · exact .ok _
  · exact .error rfl

theorem neverUnclosed_decodeValue (value : Option (List Char)) :
    NeverUnclosed (decodeValue value) := by
  unfold decodeValue
  split
  · exact .ok _
  · split
    · exact .ok _
    · exact .error rfl

theorem neverUnclosed_startTag (position : Position) (cs : List Char) :
    NeverUnclosed (startTag position cs) := by
  unfold startTag
  dsimp only
  split
  · exact .ok _
  · exact .ok _
  · refine .bind (.mapM (fun a => ?_) _) fun attributes => .ok _
    exact (neverUnclosed_decodeValue a.value).bind fun value => .ok _

theorem neverUnclosed_markedSection (cs : List Char) : NeverUnclosed (markedSection cs) := by
  unfold markedSection
  split
  · exact .ok _
  · split
    · dsimp only
      split
      · exact .ok _
      · split
        · exact .error rfl
        · exact .ok _
    · exact .error rfl

theorem neverUnclosed_bracketed (position : Position) (cs : List Char) :
    NeverUnclosed (bracketed position cs) := by
  unfold bracketed
  split
  · exact .ok _
  · exact .ok _
  · exact neverUnclosed_markedSection _
  · exact .ok _
  · exact .ok _
  · split
    · exact neverUnclosed_startTag position _
    · exact .ok _
  · exact .ok _

theorem neverUnclosed_incomplete (cs : List Char) : NeverUnclosed (incomplete cs) := by
  unfold incomplete
  split
  · exact neverUnclosed_ofText _
  · split
    · exact neverUnclosed_ofText _
    · exact neverUnclosed_ofText _

theorem neverUnclosed_next (position : Position) (c : Char) (cs : List Char) :
    NeverUnclosed (next position c cs) := by
  unfold next
  split
  · refine (neverUnclosed_bracketed position cs).bind fun construct => ?_
    cases construct with
    | none => exact neverUnclosed_incomplete cs
    | some construct => exact .ok _
  · exact neverUnclosed_ofText _

theorem neverUnclosed_read (position : Position) (raw : Option (List Char)) (c : Char)
    (cs : List Char) : NeverUnclosed (read position raw c cs) := by
  cases raw with
  | some name => exact .ok _
  | none => exact (neverUnclosed_next position c cs).map some

end Construct

theorem neverUnclosed_eventsFrom (position : Position) (raw : Option (List Char)) (cs : List Char) :
    NeverUnclosed (eventsFrom position raw cs) := by
  fun_induction eventsFrom position raw cs with
  | case1 => exact .ok []
  | case2 position raw c cs ih =>
      refine (Construct.neverUnclosed_read position raw c cs).bind fun construct => ?_
      cases construct with
      | none => exact .ok []
      | some construct => exact (ih construct).bind fun events => .ok _

theorem isUnclosed_of_split {source : List Char} {error : MarkupError}
    (h : Frontmatter.split source = .error error) : error.isUnclosed = true := by
  unfold Frontmatter.split at h
  dsimp only at h
  split at h
  · contradiction
  · split at h
    · contradiction
    · cases h
      rfl

theorem parse_of_unclosed {source : String} {error : MarkupError}
    (h : Frontmatter.split source.toList = .error error) : Page.parse source = .error error := by
  rw [Page.parse, h]
  rfl

/-- Behind a frontmatter that is closed, or without any, a page fails for other reasons. -/
theorem neverUnclosed_parse {source : String} {parts : List Char × List Char}
    (h : Frontmatter.split source.toList = .ok parts) : NeverUnclosed (Page.parse source) := by
  rw [Page.parse, h]
  exact (neverUnclosed_eventsFrom Position.start none parts.2).bind fun events => .ok _

end Markup

/-! ## Pairs and verdicts -/

/-- The pairs of a document stand in the order of their elements, and no element has two. -/
theorem Styling.index_sublist_of_pairs {styling : Styling} {doc : Document}
    {pairs : List ContrastPair} (h : styling.pairs doc = .ok pairs) :
    (pairs.map (·.element.index)).Sublist (List.range doc.size) := by
  rw [pairs_eq_mapM] at h
  obtain ⟨answers, hanswers, rfl⟩ := map_eq_ok_iff.1 h
  have helements := map_filterMap_of_mapM (fun e answer => map_element_of_lookedPair?) hanswers
  have hindices : (answers.filterMap id).map (·.element.index) =
      (doc.toList.filter (styling.isAudited doc)).map (·.index) := by
    rw [← helements, List.map_map]
    rfl
  rw [hindices, ← doc.map_index_toList]
  exact List.filter_sublist.map _

namespace Outcome

/-- The counts of an outcome fit its findings and problems and the pairs they are about, and both
stand in the order of their elements. -/
structure Balances (outcome : Outcome) (pairs : List ContrastPair) : Prop where
  pairs_eq : outcome.counts.pairs = outcome.counts.ignored + outcome.findings.length
  passing_add_failing :
    outcome.counts.passing + outcome.counts.failing = outcome.findings.length
  aaaOnlyFailing_le : outcome.counts.aaaOnlyFailing ≤ outcome.counts.passing
  unresolved_eq : outcome.counts.unresolved = outcome.problems.length
  pairs_add_unresolved : outcome.counts.pairs + outcome.counts.unresolved = pairs.length
  length_pairs_le : pairs.length ≤ outcome.counts.elements
  findings_ordered : (outcome.findings.map (·.pair.element.index)).Pairwise (· < ·)
  problems_ordered : ∃ unresolved : List ContrastPair,
    outcome.problems = unresolved.map .unresolved ∧
      (unresolved.map (·.element.index)).Pairwise (· < ·)

section Verdicts

variable (verdicts : List (ContrastPair × Option Verdict))

/-- The pairs with a verdict. -/
def resolved : List Finding :=
  verdicts.filterMap fun (pair, verdict) => verdict.map (Finding.mk pair)

/-- The pairs without a verdict. -/
def unresolved : List ContrastPair :=
  (verdicts.filter (·.2.isNone)).map (·.1)

theorem length_resolved_add_unresolved :
    (resolved verdicts).length + (unresolved verdicts).length = verdicts.length := by
  induction verdicts with
  | nil => rfl
  | cons v verdicts ih =>
      obtain ⟨pair, verdict⟩ := v
      cases verdict <;> simp [resolved, unresolved] at ih ⊢ <;> omega

theorem pair_sublist_resolved :
    ((resolved verdicts).map (·.pair)).Sublist (verdicts.map (·.1)) := by
  induction verdicts with
  | nil => exact .slnil
  | cons v verdicts ih =>
      obtain ⟨pair, verdict⟩ := v
      cases verdict with
      | none => exact ih.cons pair
      | some verdict => exact ih.cons_cons pair

theorem problems_ofVerdicts (file : String) (elements : Nat) (isIgnored : ContrastPair → Bool) :
    (ofVerdicts file elements isIgnored verdicts).problems =
      (unresolved verdicts).map .unresolved := by
  simp only [ofVerdicts]
  induction verdicts with
  | nil => rfl
  | cons v verdicts ih =>
      obtain ⟨pair, verdict⟩ := v
      cases verdict with
      | none => exact congrArg _ ih
      | some verdict => exact ih

end Verdicts

/-- What is made of the verdicts on some pairs balances, if their elements stand in order. -/
theorem balances_ofVerdicts (file : String) {elements : Nat} (isIgnored : ContrastPair → Bool)
    {verdicts : List (ContrastPair × Option Verdict)} {pairs : List ContrastPair}
    (hpairs : verdicts.map (·.1) = pairs)
    (hindices : (pairs.map (·.element.index)).Sublist (List.range elements)) :
    (ofVerdicts file elements isIgnored verdicts).Balances pairs := by
  subst hpairs
  have hordered := List.pairwise_lt_range.sublist hindices
  have hproblems := problems_ofVerdicts verdicts file elements isIgnored
  have hkept : ((resolved verdicts).filter fun f => !isIgnored f.pair).length ≤
      (resolved verdicts).length := List.length_filter_le _ _
  constructor
  case pairs_eq => exact (Nat.sub_add_cancel hkept).symm
  case passing_add_failing => exact passing_add_failing file elements isIgnored verdicts
  case aaaOnlyFailing_le =>
    refine List.countP_mono_left fun f _ hf => ?_
    exact (Bool.and_eq_true_iff.1 hf).1
  case unresolved_eq => rfl
  case pairs_add_unresolved =>
    have hlength : (ofVerdicts file elements isIgnored verdicts).counts.unresolved =
        (unresolved verdicts).length := (congrArg List.length hproblems).trans (List.length_map _)
    rw [hlength, List.length_map]
    exact length_resolved_add_unresolved verdicts
  case length_pairs_le =>
    have hlength := hindices.length_le
    rwa [List.length_map, List.length_range] at hlength
  case findings_ordered =>
    have hfindings : ((ofVerdicts file elements isIgnored verdicts).findings.map
        (·.pair)).Sublist (verdicts.map (·.1)) :=
      (List.filter_sublist.map _).trans (pair_sublist_resolved verdicts)
    have h := hordered.sublist (hfindings.map (·.element.index))
    rwa [List.map_map] at h
  case problems_ordered =>
    exact ⟨_, hproblems, hordered.sublist ((List.filter_sublist.map _).map _)⟩

end Outcome

namespace Auditor

variable {auditor : Auditor} {fs : FileSystem} {source file : String} {directory : Path}

/-- A text whose frontmatter is not closed has no findings, counts nothing and has one problem, that
it cannot be read. -/
theorem auditText_of_unclosed {error : Markup.MarkupError}
    (h : Markup.Frontmatter.split source.toList = .error error) :
    auditor.auditText fs source file directory =
      .ok { file, findings := [], problems := [.unreadable error.message], counts := {} } := by
  rw [auditText, Markup.parse_of_unclosed h]
  exact if_pos (Markup.isUnclosed_of_split h)

/-- The outcome of a page is made of the verdicts on its pairs. -/
theorem exists_verdicts_of_auditPage {page : Markup.Page} {outcome : Outcome}
    (h : auditor.auditPage fs page file directory = .ok outcome) :
    ∃ linked seen pairs verdicts,
      Stylesheet.loadLinked fs (page.linked ++ page.sheet.imports) directory [] =
        .ok (linked, seen) ∧
      (auditor.styling page linked).pairs page.document = .ok pairs ∧
      verdicts.map (·.1) = pairs ∧
      (∀ v ∈ verdicts, v.1.evaluate = .ok v.2) ∧
      outcome = .ofVerdicts file page.document.size auditor.ignore.ignores verdicts := by
  obtain ⟨⟨linked, seen⟩, hlinked, h⟩ := bind_eq_ok_iff.1 h
  obtain ⟨pairs, hpairs, h⟩ := bind_eq_ok_iff.1 h
  obtain ⟨verdicts, hverdicts, h⟩ := bind_eq_ok_iff.1 h
  rw [return_eq_ok_iff] at h
  rw [mapError_eq_ok_iff] at hlinked hpairs
  refine ⟨linked, seen, pairs, verdicts, hlinked, hpairs, map_fst_of_mapM hverdicts, ?_, h.symm⟩
  intro v hv
  obtain ⟨pair, -, hpair⟩ := exists_of_mem_mapM hverdicts hv
  obtain ⟨verdict, hverdict, heq⟩ := bind_eq_ok_iff.1 hpair
  rw [return_eq_ok_iff] at heq
  subst heq
  exact mapError_eq_ok_iff.1 hverdict

theorem exists_balances_of_auditPage {page : Markup.Page} {outcome : Outcome}
    (h : auditor.auditPage fs page file directory = .ok outcome) :
    ∃ linked seen pairs,
      Stylesheet.loadLinked fs (page.linked ++ page.sheet.imports) directory [] =
        .ok (linked, seen) ∧
      (auditor.styling page linked).pairs page.document = .ok pairs ∧
      outcome.counts.elements = page.document.size ∧ outcome.Balances pairs := by
  obtain ⟨linked, seen, pairs, verdicts, hlinked, hpairs, hmap, -, rfl⟩ :=
    exists_verdicts_of_auditPage h
  exact ⟨linked, seen, pairs, hlinked, hpairs, rfl,
    Outcome.balances_ofVerdicts file auditor.ignore.ignores hmap
      (Styling.index_sublist_of_pairs hpairs)⟩

/-- Any other text that has an outcome at all is a page with pairs, and the outcome balances. -/
theorem exists_balances {outcome : Outcome} {parts : List Char × List Char}
    (hsplit : Markup.Frontmatter.split source.toList = .ok parts)
    (h : auditor.auditText fs source file directory = .ok outcome) :
    ∃ page linked seen pairs, Markup.Page.parse source = .ok page ∧
      Stylesheet.loadLinked fs (page.linked ++ page.sheet.imports) directory [] =
        .ok (linked, seen) ∧
      (auditor.styling page linked).pairs page.document = .ok pairs ∧
      outcome.counts.elements = page.document.size ∧ outcome.Balances pairs := by
  rw [auditText] at h
  cases hpage : Markup.Page.parse source with
  | error error =>
      have hclosed := Markup.neverUnclosed_parse hsplit error hpage
      simp [hpage, hclosed] at h
  | ok page =>
      rw [hpage] at h
      obtain ⟨linked, seen, pairs, hrest⟩ := exists_balances_of_auditPage h
      exact ⟨page, linked, seen, pairs, rfl, hrest⟩

end Auditor

/-- An outcome that an audit of a text or of a file has. -/
def Outcome.IsAudited (outcome : Outcome) : Prop :=
  (∃ auditor fs source file directory,
      Auditor.auditText auditor fs source file directory = .ok outcome) ∨
    ∃ auditor fs path, Auditor.auditFile auditor fs path = .ok outcome

theorem Auditor.pairs_eq_of_auditText {auditor : Auditor} {fs : FileSystem} {source file : String}
    {directory : Path} {outcome : Outcome}
    (h : auditor.auditText fs source file directory = .ok outcome) :
    outcome.counts.pairs = outcome.counts.ignored + outcome.findings.length := by
  cases hsplit : Markup.Frontmatter.split source.toList with
  | error error =>
      rw [auditText_of_unclosed hsplit] at h
      cases h
      rfl
  | ok parts =>
      obtain ⟨_, _, _, _, _, _, _, _, hbalances⟩ := exists_balances hsplit h
      exact hbalances.pairs_eq

/-- Pairs are kept or ignored, also in a file that cannot be read. -/
theorem Outcome.IsAudited.pairs_eq {outcome : Outcome} (h : outcome.IsAudited) :
    outcome.counts.pairs = outcome.counts.ignored + outcome.findings.length := by
  rcases h with ⟨auditor, fs, source, file, directory, h⟩ | ⟨auditor, fs, path, h⟩
  · exact Auditor.pairs_eq_of_auditText h
  · unfold Auditor.auditFile at h
    split at h
    · cases h
      rfl
    · exact Auditor.pairs_eq_of_auditText h

end ContrastAudit
