import ContrastAudit.Proofs.Color.Byte
import ContrastAudit.Proofs.Report.Rows

/-!
# Pages without injections

What markup a page has depends on the shape of the outcomes alone: how many files, findings and
problems there are, which verdicts were reached, which problems have an element, and whether some
pairs were left out.  No text, number or color that a page shows has a say in it.

The skeleton of a page, which is the page with all its texts left empty, is compared for two lists
of outcomes at once, one lemma for each part of the page.  Texts are escaped and add no special
character, so pages with one skeleton have the same special characters in the same order.

**Results.**
* `specials_page`: the special characters of a page are those of its markup.
* `exists_page_iff`: there is a page exactly if the alphas that it shows can be written, which those
  between zero and one can (`isWritable_of_alpha`).
* `specials_eq_of_shape_eq`: outcomes of the same shape have the same special characters.
-/

namespace ContrastAudit.Report

/-! ## Shapes -/

/-- What a verdict comes to. -/
structure Flags where
  meetsAa : Bool
  meetsAaa : Bool
  large : Bool
  deriving DecidableEq, Repr

/-- The flags of the verdict of a finding. -/
def flags (finding : Finding) : Flags where
  meetsAa := finding.verdict.meets .aa
  meetsAaa := finding.verdict.meets .aaa
  large := finding.verdict.large

/-- Whether flags fail a level. -/
def Flags.fails (flags : Flags) : Conformance → Bool
  | .aa => !flags.meetsAa
  | .aaa => !flags.meetsAaa

/-- The shape of an outcome.  Of its counts, a page only asks whether some pairs were left out. -/
structure Shape where
  findings : List Flags
  /-- For each of the problems, whether it has an element. -/
  problems : List Bool
  ignores : Bool
  deriving DecidableEq, Repr

/-- The shape of an outcome. -/
def shape (outcome : Outcome) : Shape where
  findings := outcome.findings.map flags
  problems := outcome.problems.map (·.element?.isSome)
  ignores := outcome.counts.ignored != 0

/-- The special characters of a text, in order. -/
def specials (text : String) : List Char :=
  text.toList.filter (· ∈ Html.special)

/-! ## Skeletons -/

/-- A piece without what it shows. -/
def Html.blank : Html → Html
  | .markup s => .markup s
  | .text _ => .text ""

/-- Lines without what they show. -/
def skeleton (lines : List Line) : List Line :=
  lines.map (List.map Html.blank)

section Skeletons

variable {lines lines' : List Line}

@[simp] theorem skeleton_append (lines lines' : List Line) :
    skeleton (lines ++ lines') = skeleton lines ++ skeleton lines' :=
  List.map_append

theorem skeleton_flatten (parts : List (List Line)) :
    skeleton parts.flatten = (parts.map skeleton).flatten :=
  List.map_flatten

/-- A piece has the special characters that it has without its text. -/
theorem filter_special_render (piece : Html) :
    piece.render.filter (· ∈ Html.special) = piece.blank.render.filter (· ∈ Html.special) := by
  cases piece with
  | markup s => rfl
  | text s =>
      have hnone : (Html.escape s.toList).filter (· ∈ Html.special) = [] :=
        List.filter_eq_nil_iff.2 fun c hc hspecial =>
          Html.not_mem_escape (of_decide_eq_true hspecial) s.toList hc
      exact hnone

/-- The special characters of a page are those of its markup. -/
theorem specials_page (pieces : List Html) :
    specials (Html.page pieces) = specials (Html.page (pieces.map Html.blank)) := by
  rw [specials, specials, Html.page, Html.page, String.toList_ofList, String.toList_ofList,
    List.filter_flatMap, List.filter_flatMap, List.flatMap_map]
  exact congrArg (pieces.flatMap ·) (funext filter_special_render)

theorem map_intersperse {α β : Type} (f : α → β) (separator : α) (as : List α) :
    (as.intersperse separator).map f = (as.map f).intersperse (f separator) := by
  induction as with
  | nil => rfl
  | cons a as ih =>
      cases as with
      | nil => rfl
      | cons b as =>
          rw [List.intersperse_cons_cons, List.map_cons, List.map_cons, ih]
          rfl

/-- Lines with the same skeleton make pages with the same special characters. -/
theorem specials_eq_of_skeleton_eq (h : skeleton lines = skeleton lines') :
    specials (Html.page (lines.intersperse [.markup "\n"]).flatten) =
      specials (Html.page (lines'.intersperse [.markup "\n"]).flatten) := by
  have hblank : ∀ lines : List Line,
      ((lines.intersperse [.markup "\n"]).flatten).map Html.blank =
        ((skeleton lines).intersperse [.markup "\n"]).flatten := fun lines => by
    rw [List.map_flatten, map_intersperse]
    rfl
  rw [specials_page, hblank, h, ← hblank, ← specials_page]

end Skeletons

/-! ## Two runs -/

section Runs

variable {level : Conformance}

theorem fails_flags (finding : Finding) : (flags finding).fails level = finding.fails level := by
  cases level <;> rfl

/-- Which finding is shown where is a matter of the verdicts. -/
theorem map_flags_failingFirst (findings : List Finding) :
    (failingFirst level findings).map flags =
      (findings.map flags).filter (·.fails level) ++
        (findings.map flags).filter fun f => !f.fails level := by
  have hfails : (fun f : Flags => f.fails level) ∘ flags = (·.fails level) := funext fails_flags
  have hpasses : (fun f : Flags => !f.fails level) ∘ flags = fun f => !f.fails level :=
    funext fun f => congrArg (! ·) (fails_flags f)
  rw [failingFirst, List.map_append, List.filter_map, List.filter_map, hfails, hpasses]

theorem skeleton_rowLines {finding finding' : Finding} {lines lines' : List Line}
    (hflags : flags finding = flags finding') (h : rowLines level finding = .ok lines)
    (h' : rowLines level finding' = .ok lines') : skeleton lines = skeleton lines' := by
  have hlarge : finding.verdict.large = finding'.verdict.large := congrArg Flags.large hflags
  obtain ⟨foreground, -, h⟩ := bind_eq_ok_iff.1 h
  obtain ⟨background, -, h⟩ := bind_eq_ok_iff.1 h
  obtain ⟨foreground', -, h'⟩ := bind_eq_ok_iff.1 h'
  obtain ⟨background', -, h'⟩ := bind_eq_ok_iff.1 h'
  rw [return_eq_ok_iff] at h h'
  subst h h'
  simp only [skeleton, colorCell, List.map_cons, List.map_nil, List.map_append, Html.blank, hlarge]

theorem skeleton_tableLines {findings findings' : List Finding} {lines lines' : List Line}
    (hflags : findings.map flags = findings'.map flags) (h : tableLines level findings = .ok lines)
    (h' : tableLines level findings' = .ok lines') : skeleton lines = skeleton lines' := by
  have hempty : findings.isEmpty = findings'.isEmpty := by
    rw [← List.isEmpty_map (f := flags), hflags, List.isEmpty_map]
  unfold tableLines at h h'
  rw [hempty] at h
  split at h
  · next hnone =>
      rw [if_pos hnone] at h'
      rw [return_eq_ok_iff] at h h'
      rw [← h, ← h']
  · next hsome =>
      rw [if_neg hsome] at h'
      obtain ⟨rows, hrows, h⟩ := bind_eq_ok_iff.1 h
      obtain ⟨rows', hrows', h'⟩ := bind_eq_ok_iff.1 h'
      rw [return_eq_ok_iff] at h h'
      have horder : (failingFirst level findings).map flags =
          (failingFirst level findings').map flags := by
        rw [map_flags_failingFirst, map_flags_failingFirst, hflags]
      have hskeletons : rows.map skeleton = rows'.map skeleton :=
        map_eq_map_of_mapM skeleton_rowLines horder hrows hrows'
      rw [← h, ← h', skeleton_append, skeleton_append, skeleton_append, skeleton_append,
        skeleton_flatten, skeleton_flatten, hskeletons]

theorem blank_warningLine {problem problem' : Problem}
    (h : problem.element?.isSome = problem'.element?.isSome) :
    (warningLine problem).map Html.blank = (warningLine problem').map Html.blank := by
  cases problem with
  | unreadable reason =>
      cases problem' with
      | unreadable reason' => rfl
      | unresolved pair' => cases h
  | unresolved pair =>
      cases problem' with
      | unreadable reason' => cases h
      | unresolved pair' => rfl

/-- Two lists that agree on `g` agree on `k`, if that is so for any two elements. -/
theorem map_eq_map {α γ δ : Type} {g : α → γ} {k : α → δ}
    (hk : ∀ {a a'}, g a = g a' → k a = k a') {as as' : List α} (h : as.map g = as'.map g) :
    as.map k = as'.map k := by
  induction as generalizing as' with
  | nil => rw [List.map_eq_nil_iff.1 h.symm]
  | cons a as ih =>
      cases as' with
      | nil => cases h
      | cons a' as' =>
          obtain ⟨hfirst, hrest⟩ := List.cons.inj h
          rw [List.map_cons, List.map_cons, hk hfirst, ih hrest]

theorem skeleton_warningLines {problems problems' : List Problem}
    (h : problems.map (·.element?.isSome) = problems'.map (·.element?.isSome)) :
    skeleton (warningLines problems) = skeleton (warningLines problems') := by
  have hlines : skeleton (problems.map warningLine) = skeleton (problems'.map warningLine) := by
    rw [skeleton, skeleton, List.map_map, List.map_map]
    exact map_eq_map blank_warningLine h
  have hempty : problems.isEmpty = problems'.isEmpty := by
    rw [← List.isEmpty_map (f := fun p : Problem => p.element?.isSome), h, List.isEmpty_map]
  unfold warningLines
  rw [hempty]
  split
  · rfl
  · rw [skeleton_append, skeleton_append, skeleton_append, skeleton_append, hlines]

theorem skeleton_sectionLines {outcome outcome' : Outcome} {part part' : List Line}
    (hshape : shape outcome = shape outcome') (h : sectionLines level outcome = .ok part)
    (h' : sectionLines level outcome' = .ok part') : skeleton part = skeleton part' := by
  obtain ⟨table, htable, h⟩ := bind_eq_ok_iff.1 h
  obtain ⟨table', htable', h'⟩ := bind_eq_ok_iff.1 h'
  rw [return_eq_ok_iff] at h h'
  have hfindings := skeleton_tableLines (congrArg Shape.findings hshape) htable htable'
  have hproblems := skeleton_warningLines (congrArg Shape.problems hshape)
  rw [← h, ← h']
  simp only [skeleton_append, hfindings, hproblems]
  rfl

/-- A card is shown for the same totals. -/
theorem skeleton_cardIfAny {title : String} {total total' : Nat} (h : total = 0 ↔ total' = 0) :
    skeleton (cardIfAny title total) = skeleton (cardIfAny title total') := by
  unfold cardIfAny
  by_cases hzero : total = 0
  · rw [if_pos hzero, if_pos (h.1 hzero)]
  · rw [if_neg hzero, if_neg (mt h.2 hzero)]
    rfl

theorem ignored_of_eq_zero_iff (outcomes : List Outcome) :
    (Summary.of level outcomes).ignored = 0 ↔ ∀ s ∈ outcomes.map shape, s.ignores = false := by
  induction outcomes with
  | nil => simp [Summary.of]
  | cons outcome outcomes ih =>
      rw [List.map_cons, List.forall_mem_cons, ← ih]
      simp [Summary.of, Summary.add, Summary.ofOutcome, shape]

theorem warnings_of (outcomes : List Outcome) :
    (Summary.of level outcomes).warnings =
      ((outcomes.map shape).map fun s => s.problems.length).sum := by
  induction outcomes with
  | nil => rfl
  | cons outcome outcomes ih =>
      rw [List.map_cons, List.map_cons, List.sum_cons, ← ih]
      simp [Summary.of, Summary.add, Summary.ofOutcome, shape]

theorem skeleton_cardLines {outcomes outcomes' : List Outcome}
    (h : outcomes.map shape = outcomes'.map shape) :
    skeleton (cardLines (.of level outcomes)) = skeleton (cardLines (.of level outcomes')) := by
  have hignored : (Summary.of level outcomes).ignored = 0 ↔
      (Summary.of level outcomes').ignored = 0 := by
    rw [ignored_of_eq_zero_iff, ignored_of_eq_zero_iff, h]
  have hwarnings : (Summary.of level outcomes).warnings =
      (Summary.of level outcomes').warnings := by
    rw [warnings_of, warnings_of, h]
  simp only [cardLines, skeleton_append, hwarnings, skeleton_cardIfAny hignored]
  rfl

theorem skeleton_pageLines {outcomes outcomes' : List Outcome} {lines lines' : List Line}
    (hshape : outcomes.map shape = outcomes'.map shape) (h : pageLines level outcomes = .ok lines)
    (h' : pageLines level outcomes' = .ok lines') : skeleton lines = skeleton lines' := by
  obtain ⟨parts, hparts, h⟩ := bind_eq_ok_iff.1 h
  obtain ⟨parts', hparts', h'⟩ := bind_eq_ok_iff.1 h'
  rw [return_eq_ok_iff] at h h'
  have hcards : skeleton (cardLines (.of level outcomes)) =
      skeleton (cardLines (.of level outcomes')) := skeleton_cardLines hshape
  have hskeletons : parts.map skeleton = parts'.map skeleton :=
    map_eq_map_of_mapM skeleton_sectionLines hshape hparts hparts'
  rw [← h, ← h']
  simp only [skeleton_append, hcards, skeleton_flatten, hskeletons]

end Runs

/-! ## Pages -/

/-- A color with an alpha that can be written, if it has any. -/
def IsWritable (info : ColorInfo) : Prop :=
  ∀ color ∈ info.color, ∀ alpha ∈ color.alpha, Number.isFinite (alpha * 255.0 + 0.5) = true

instance decidableIsWritable (info : ColorInfo) : Decidable (IsWritable info) :=
  decidable_of_iff (info.color.all fun color => color.alpha.all fun alpha =>
      Number.isFinite (alpha * 255.0 + 0.5))
    (by simp only [Option.all_eq_true, IsWritable, Option.mem_def])

section Pages

variable {level : Conformance}

theorem exists_floor_iff (x : Float) :
    (∃ n, Number.floor x = .ok n) ↔ Number.isFinite x = true := by
  unfold Number.floor Number.isFinite
  cases Number.parts x <;> simp

theorem exists_hexText_iff (info : ColorInfo) :
    (∃ text, hexText info = .ok text) ↔ IsWritable info := by
  unfold hexText IsWritable
  cases hcolor : info.color with
  | none => simp
  | some color =>
      cases halpha : color.alpha with
      | none => simp [Color.hex, halpha, pure, Except.pure]
      | some alpha =>
          have hfloor := exists_floor_iff (alpha * 255.0 + 0.5)
          simp only [Color.hex, halpha, exists_bind_iff, return_eq_ok_iff, exists_eq', and_true]
          simpa [Number.roundHalfUp, halpha] using hfloor

/-- An alpha between zero and one can be written. -/
theorem isWritable_of_alpha {info : ColorInfo}
    (h : ∀ color ∈ info.color, ∀ alpha ∈ color.alpha,
      ∃ q : ℚ, Number.value? alpha = some q ∧ 0 ≤ q ∧ q ≤ 1) : IsWritable info := by
  intro color hcolor alpha halpha
  obtain ⟨q, hq, hlow, hhigh⟩ := h color hcolor alpha halpha
  have hsize : (2 : ℚ) ^ (8 : ℤ) = 256 := by norm_num
  have hunit : (2 : ℚ) ^ ((8 : ℤ) - 52) ≤ 1 / 4096 := by norm_num
  obtain ⟨p, hp, herror⟩ := Number.value?_mul (N := 8) (by decide) (by decide) hq value?_255
    (by rw [hsize, abs_le]; constructor <;> linarith)
  obtain ⟨hbelow, habove⟩ := abs_le.1 (herror.trans hunit)
  obtain ⟨n, hn, -⟩ := roundHalfUp_of_value? hp (by linarith) (by linarith)
  exact (exists_floor_iff _).1 ⟨n, hn⟩

/-- There is a page exactly if the alphas that it shows can be written. -/
theorem exists_page_iff {outcomes : List Outcome} :
    (∃ text, page level outcomes = .ok text) ↔
      ∀ outcome ∈ outcomes, ∀ finding ∈ outcome.findings,
        IsWritable finding.pair.foreground ∧ IsWritable finding.pair.background := by
  have hlines : (∃ text, page level outcomes = .ok text) ↔
      ∃ lines, pageLines level outcomes = .ok lines := by
    rw [page, exists_bind_iff]
    simp only [return_eq_ok_iff, exists_eq', and_true]
  rw [hlines, exists_pageLines_iff]
  simp only [IsDrawable, exists_hexText_iff]

end Pages

/-- No page can be injected into.  There is a page of some outcomes unless an alpha in them cannot
be written, and the pages of outcomes of the same shape have the same special characters. -/
theorem specials_eq_of_shape_eq (level : Conformance) {outcomes outcomes' : List Outcome}
    (h : outcomes.map shape = outcomes'.map shape) :
    (∀ shown ∈ [outcomes, outcomes'], (∃ text, page level shown = .ok text) ↔
      ∀ outcome ∈ shown, ∀ finding ∈ outcome.findings,
        IsWritable finding.pair.foreground ∧ IsWritable finding.pair.background) ∧
    ∀ text text', page level outcomes = .ok text → page level outcomes' = .ok text' →
      specials text = specials text' := by
  refine ⟨fun _ _ => exists_page_iff, fun text text' htext htext' => ?_⟩
  obtain ⟨lines, hlines, rfl⟩ := page_eq_ok_iff.1 htext
  obtain ⟨lines', hlines', rfl⟩ := page_eq_ok_iff.1 htext'
  exact specials_eq_of_skeleton_eq (skeleton_pageLines h hlines hlines')

/-- An outcome that shows one text wherever there is one, with a finding and a problem of either
kind. -/
def showing (text : String) (color : Color) (ratio : Float) : Outcome :=
  let info : ColorInfo := ⟨text, some color, .stylesheet, text, none⟩
  let element : Element :=
    { features := { tag := text, classes := [text] }, index := 0, parent := none }
  let pair : ContrastPair := { element, foreground := info, background := info }
  { file := text
    findings := [⟨pair, ⟨ratio, true⟩⟩]
    problems := [.unreadable text, .unresolved pair] }

theorem specials_eq_of_shape_eq_showing :
    [showing "p" .black 3.5].map shape =
      [showing "\"></td><script>alert('&')</script>" ⟨9, 8, 7, some 0.5⟩ 4.0].map shape ∧
    ∃ text text', page .aa [showing "p" .black 3.5] = .ok text ∧
      page .aa [showing "\"></td><script>alert('&')</script>" ⟨9, 8, 7, some 0.5⟩ 4.0] = .ok text' ∧
      specials text = specials text' := by
  have hshape : [showing "p" .black 3.5].map shape =
      [showing "\"></td><script>alert('&')</script>" ⟨9, 8, 7, some 0.5⟩ 4.0].map shape := by
    decide +kernel
  obtain ⟨hpages, hspecials⟩ := specials_eq_of_shape_eq .aa hshape
  obtain ⟨text, htext⟩ := (hpages _ List.mem_cons_self).2 (by decide +kernel)
  obtain ⟨text', htext'⟩ :=
    (hpages _ (List.mem_cons_of_mem _ List.mem_cons_self)).2 (by decide +kernel)
  exact ⟨hshape, text, text', htext, htext', hspecials text text' htext htext'⟩

end ContrastAudit.Report
