import ContrastAudit.Proofs.Pairing.Faults

/-!
# Audited elements and what their pairs show

The pairs of a document are those of its audited elements: the ones that show text and have a color
or a background of their own.  What shows of a pair is opaque.  A translucent color is painted over
what is behind it and kept as it is written, wherever it comes from: the element itself, any of its
ancestors, or the page.

**Results.**
* `pairs_of_audited`: a document has a pair for each audited element, in order, and these pairs are
  composited.
-/

namespace ContrastAudit

namespace ColorInfo

/-- A color shows as it is written, or painted on what is behind it.  What shows is opaque, if it is
known, and a translucent color is kept. -/
structure Renders (info : ColorInfo) (written : Option Color) : Prop where
  final : info.isFinal = true
  authored : info.authored = written.filter (!·.isSolid)
  color : written.all (·.isSolid) = true → info.color = written

theorem renders_of_isFinal {info : ColorInfo} (h : info.isFinal = true)
    (hauthored : info.authored = none) : info.Renders info.color where
  final := h
  authored := by
    cases hc : info.color with
    | none => exact hauthored
    | some color =>
        have hsolid : color.isSolid = true := by simpa [isFinal, hc] using h
        rw [hauthored, Option.filter_some, hsolid]
        rfl
  color := fun _ => rfl

/-- A translucent color that is painted is kept, and what is painted is opaque. -/
theorem paint_of_translucent {info surface painted : ColorInfo} {color : Color}
    (hc : info.color = some color) (hsolid : ¬ color.isSolid = true)
    (h : info.paint surface = .ok painted) :
    painted.isFinal = true ∧ painted.authored = some color := by
  simp only [paint, hc, if_neg hsolid] at h
  cases hb : surface.color with
  | none =>
      rw [hb, Except.ok.injEq] at h
      subst h
      exact ⟨rfl, rfl⟩
  | some behind =>
      rw [hb] at h
      obtain ⟨mixed, hmixed, h⟩ := bind_eq_ok_iff.1 h
      rw [return_eq_ok_iff] at h
      subst h
      exact ⟨Color.isSolid_onto hmixed, rfl⟩

theorem renders_of_paint {info surface painted : ColorInfo} (h : info.paint surface = .ok painted)
    (hauthored : info.authored = none) : painted.Renders info.color := by
  by_cases hfinal : info.isFinal = true
  · rw [paint_of_solid hfinal, Except.ok.injEq] at h
    rw [← h]
    exact renders_of_isFinal hfinal hauthored
  · cases hc : info.color with
    | none => exact absurd (by rw [isFinal, hc]; rfl) hfinal
    | some color =>
        have hsolid : ¬ color.isSolid = true := by simpa [isFinal, hc] using hfinal
        obtain ⟨hpainted, hkept⟩ := paint_of_translucent hc hsolid h
        refine ⟨hpainted, ?_, fun hall => absurd hall hsolid⟩
        rw [hkept, Option.filter_some]
        simp [hsolid]

theorem renders_defaultForeground : defaultForeground.Renders (some Color.black) :=
  renders_of_isFinal (by decide) rfl

theorem renders_defaultBackground : defaultBackground.Renders (some Color.white) :=
  renders_of_isFinal (by decide) rfl

end ColorInfo

section Specified

variable {specified : SpecifiedColor} {side : Side} {label : String} {info : ColorInfo}
  (h : specified.info side label = .ok info)
include h

theorem SpecifiedColor.authored_of_info : info.authored = none := by
  obtain ⟨color, -, h⟩ := bind_eq_ok_iff.1 h
  rw [return_eq_ok_iff] at h
  rw [← h]

/-- Painting a specified color renders the color that its text writes. -/
theorem SpecifiedColor.renders_of_paint {surface painted : ColorInfo}
    (hpaint : info.paint surface = .ok painted) :
    ∃ written, specified.materialize side = .ok written ∧ painted.Renders written :=
  ⟨info.color, Styling.materialize_of_info h,
    ColorInfo.renders_of_paint hpaint (authored_of_info h)⟩

end Specified

/-- The elements of a document stand at their places. -/
theorem Document.map_index_toList (doc : Document) :
    doc.toList.map (·.index) = List.range doc.size := by
  refine List.ext_getElem? fun i => ?_
  rw [List.getElem?_map, toList, Array.getElem?_toList]
  cases he : doc.elements[i]? with
  | none =>
      have hsize : doc.size ≤ i := by simpa [size] using he
      rw [List.getElem?_eq_none (by rwa [List.length_range])]
      rfl
  | some e =>
      obtain ⟨hi, -⟩ := Array.getElem?_eq_some_iff.1 he
      rw [size, List.getElem?_range hi, Option.map_some, (doc.ordered i e he).1]

namespace Styling

/-! ## Colors as they are written -/

/-- The background that shows at the first element of a lineage, as it is written: that of the
element, else of its nearest ancestor that has one, else of the page. -/
def writtenBackground (styling : Styling) : List Features → Except NumericFault (Option Color)
  | [] =>
    match Cascade.pageBackground styling.rules with
    | none => .ok (some Color.white)
    | some winner => (SpecifiedColor.ofWinner winner).materialize .background
  | f :: above => do
    match ← styling.specified? (f :: above) .background with
    | none => styling.writtenBackground above
    | some specified => specified.materialize .background

/-- The color of the text of the first element of a lineage, as it is written. -/
def writtenForeground (styling : Styling) (lineage : List Features) :
    Except NumericFault (Option Color) := do
  match ← styling.specified? lineage .foreground with
  | none => return some Color.black
  | some specified => specified.materialize .foreground

/-- Whether a color is specified for a side of the first element of a lineage. -/
def specifies (styling : Styling) (lineage : List Features) (side : Side) : Bool :=
  match styling.specified? lineage side with
  | .ok (some _) => true
  | _ => false

/-- Whether an element shows text that counts and has a color or a background of its own. -/
def isAudited (styling : Styling) (doc : Document) (e : Element) : Bool :=
  let lineage := (doc.lineage e).map (·.features)
  isShown e && (styling.specifies lineage .foreground || styling.specifies lineage .background)

/-- What shows is opaque, and translucent colors that were painted are kept.  Over a background that
is not known text is not painted, so it stays as it is written. -/
structure Composites (styling : Styling) (lineage : List Features) (a : Appearance) : Prop where
  background : ∃ written, styling.writtenBackground lineage = .ok written ∧
    a.background.Renders written
  foreground : ∃ written, styling.writtenForeground lineage = .ok written ∧
    if a.background.color.isSome then a.foreground.Renders written
    else a.foreground.color = written ∧ a.foreground.authored = none

section Surfaces

variable {styling : Styling}

theorem Composites.isFinal_background {lineage : List Features} {a : Appearance}
    (h : styling.Composites lineage a) : a.background.isFinal = true := by
  obtain ⟨_, _, hrenders⟩ := h.background
  exact hrenders.final

theorem Composites.isFinal_foreground {lineage : List Features} {a : Appearance}
    (h : styling.Composites lineage a) (hknown : a.background.color.isSome = true) :
    a.foreground.isFinal = true := by
  obtain ⟨_, _, hrenders⟩ := h.foreground
  rw [if_pos hknown] at hrenders
  exact hrenders.final

theorem renders_pageSurface {surface : ColorInfo} (h : styling.pageSurface = .ok surface) :
    ∃ written, styling.writtenBackground [] = .ok written ∧ surface.Renders written := by
  rw [pageSurface] at h
  rw [writtenBackground]
  cases hw : Cascade.pageBackground styling.rules with
  | none =>
      rw [hw, Except.ok.injEq] at h
      exact ⟨_, rfl, h ▸ ColorInfo.renders_defaultBackground⟩
  | some winner =>
      rw [hw] at h
      obtain ⟨info, hinfo, hpaint⟩ := bind_eq_ok_iff.1 h
      exact SpecifiedColor.renders_of_paint hinfo hpaint

/-- The surface behind an element renders the nearest background that is specified. -/
theorem renders_surfaceBehind {lineage : List Features} {surface : ColorInfo}
    (h : styling.surfaceBehind lineage = .ok surface) :
    ∃ written, styling.writtenBackground lineage = .ok written ∧ surface.Renders written := by
  induction lineage generalizing surface with
  | nil => exact renders_pageSurface h
  | cons f above ih =>
      rw [surfaceBehind] at h
      obtain ⟨specified, hspecified, h⟩ := bind_eq_ok_iff.1 h
      rw [writtenBackground, hspecified, ok_bind]
      cases specified with
      | none => exact ih h
      | some own =>
          obtain ⟨info, hinfo, h⟩ := bind_eq_ok_iff.1 h
          obtain ⟨behind, -, hpaint⟩ := bind_eq_ok_iff.1 h
          exact SpecifiedColor.renders_of_paint hinfo hpaint

theorem renders_backgroundOn {f : Features} {above : List Features}
    {specified : Option SpecifiedColor} {info : ColorInfo}
    (hspecified : styling.specified? (f :: above) .background = .ok specified)
    (h : backgroundOn specified (styling.surfaceBehind above) = .ok info) :
    ∃ written, styling.writtenBackground (f :: above) = .ok written ∧ info.Renders written := by
  rw [writtenBackground, hspecified, ok_bind]
  cases specified with
  | none => exact renders_surfaceBehind h
  | some own =>
      obtain ⟨color, hcolor, h⟩ := bind_eq_ok_iff.1 h
      -- a final background is not painted, but painting would not change it
      by_cases hfinal : color.isFinal = true
      · rw [if_pos hfinal, return_eq_ok_iff] at h
        subst h
        exact SpecifiedColor.renders_of_paint hcolor (ColorInfo.paint_of_solid hfinal color)
      · rw [if_neg hfinal] at h
        obtain ⟨behind, -, hpaint⟩ := bind_eq_ok_iff.1 h
        exact SpecifiedColor.renders_of_paint hcolor hpaint

theorem renders_foreground {lineage : List Features} {specified : Option SpecifiedColor}
    {background info : ColorInfo}
    (hspecified : styling.specified? lineage .foreground = .ok specified)
    (h : foreground specified background = .ok info) :
    ∃ written, styling.writtenForeground lineage = .ok written ∧
      if background.color.isSome then info.Renders written
      else info.color = written ∧ info.authored = none := by
  rw [writtenForeground, hspecified, ok_bind]
  cases specified with
  | none =>
      rw [foreground, Except.ok.injEq] at h
      subst h
      refine ⟨_, rfl, ?_⟩
      split
      · exact ColorInfo.renders_defaultForeground
      · exact ⟨rfl, rfl⟩
  | some own =>
      obtain ⟨color, hcolor, h⟩ := bind_eq_ok_iff.1 h
      cases hb : background.color with
      | none =>
          rw [hb] at h
          cases h
          exact ⟨_, materialize_of_info hcolor, rfl, SpecifiedColor.authored_of_info hcolor⟩
      | some behind =>
          rw [hb] at h
          exact SpecifiedColor.renders_of_paint hcolor h

/-- What is found out about an element comes from the colors that are specified for it. -/
theorem cases_of_appearance? {lineage : List Features} {look : Option Appearance}
    (h : styling.appearance? true lineage = .ok look) :
    ∃ fg bg, styling.specified? lineage .foreground = .ok fg ∧
      styling.specified? lineage .background = .ok bg ∧
      look.isSome = (fg.isSome || bg.isSome) ∧
      ∀ a ∈ look, backgroundOn bg (styling.surfaceBehind lineage.tail) = .ok a.background ∧
        foreground fg a.background = .ok a.foreground := by
  obtain ⟨fg, hfg, h⟩ := bind_eq_ok_iff.1 h
  obtain ⟨bg, hbg, h⟩ := bind_eq_ok_iff.1 h
  have hneither : (fg.isNone && bg.isNone) = !(fg.isSome || bg.isSome) := by
    cases fg <;> cases bg <;> rfl
  refine ⟨fg, bg, hfg, hbg, ?_⟩
  cases hown : fg.isSome || bg.isSome with
  | false =>
      rw [hneither, hown, Bool.not_false, if_pos rfl, return_eq_ok_iff] at h
      subst h
      exact ⟨rfl, by rintro _ ⟨⟩⟩
  | true =>
      rw [hneither, hown, Bool.not_true, if_neg Bool.false_ne_true] at h
      obtain ⟨background, hbackground, h⟩ := bind_eq_ok_iff.1 h
      obtain ⟨text, htext, h⟩ := bind_eq_ok_iff.1 h
      obtain ⟨weight, -, h⟩ := bind_eq_ok_iff.1 h
      rw [return_eq_ok_iff] at h
      subst h
      refine ⟨rfl, ?_⟩
      rintro _ ⟨⟩
      exact ⟨hbackground, htext⟩

/-- The look of an element that has one is composited. -/
theorem composites_of_appearance? {f : Features} {above : List Features} {a : Appearance}
    (h : styling.appearance? true (f :: above) = .ok (some a)) :
    styling.Composites (f :: above) a := by
  obtain ⟨fg, bg, hfg, hbg, -, hparts⟩ := cases_of_appearance? h
  obtain ⟨hbackground, hforeground⟩ := hparts a rfl
  exact ⟨renders_backgroundOn hbg hbackground, renders_foreground hfg hforeground⟩

end Surfaces

/-! ## The pairs of a document -/

/-- Where an element has an answer at all, it is a pair of its own exactly if it is audited. -/
theorem map_element_of_lookedPair? {styling : Styling} {doc : Document} {e : Element}
    {answer : Option ContrastPair} (h : styling.lookedPair? doc e = .ok answer) :
    answer.map (·.element) = if styling.isAudited doc e then some e else none := by
  obtain ⟨look, hlook, rfl⟩ := map_eq_ok_iff.1 h
  have haudited : look.isSome = styling.isAudited doc e := by
    rw [isAudited]
    cases hshown : isShown e with
    | false =>
        rw [hshown] at hlook
        cases hlook
        rfl
    | true =>
        rw [hshown] at hlook
        obtain ⟨fg, bg, hfg, hbg, hown, -⟩ := cases_of_appearance? hlook
        rw [hown]
        simp only [specifies, hfg, hbg]
        cases fg <;> cases bg <;> rfl
  rw [← haudited]
  cases look with
  | none => rfl
  | some a => rfl

theorem composites_of_lookedPair? {styling : Styling} {doc : Document} {e : Element}
    {pair : ContrastPair} (h : styling.lookedPair? doc e = .ok (some pair)) :
    pair.element = e ∧
      styling.Composites ((doc.lineage e).map (·.features)) pair.appearance := by
  obtain ⟨look, hlook, hpair⟩ := map_eq_ok_iff.1 h
  obtain ⟨a, rfl, rfl⟩ := Option.map_eq_some_iff.1 hpair
  refine ⟨rfl, ?_⟩
  rw [Document.lineage_eq_cons, List.map_cons] at hlook ⊢
  cases hshown : isShown e with
  | false =>
      rw [hshown] at hlook
      cases hlook
  | true =>
      rw [hshown] at hlook
      exact composites_of_appearance? hlook

/-- Either some shown element has a text that faults when it is read, or each audited element has a
pair, in document order, and no other element has.  The pair is the one that the element has on its
own.  Its background is opaque or unknown, if it is resolved its text is opaque too, and a
translucent color that was painted is kept as it is written. -/
theorem pairs_of_audited (styling : Styling) (doc : Document) :
    ((∃ fault, styling.pairs doc = .error fault) ∧ ∃ e ∈ doc.toList, isShown e = true ∧
        ¬ styling.IsPlain ((doc.lineage e).map (·.features)) ∧
        ¬ styling.IsLegible ((doc.lineage e).map (·.features))) ∨
      ∃ pairs, styling.pairs doc = .ok pairs ∧
        pairs.map (·.element) = doc.toList.filter (styling.isAudited doc) ∧
        (pairs.map (·.element.index)).Pairwise (· < ·) ∧
        ∀ pair ∈ pairs, styling.freshAnswer doc pair.element = .ok (some pair) ∧
          pair.background.isFinal = true ∧
          (pair.isResolved = true → pair.foreground.isFinal = true) ∧
          styling.Composites ((doc.lineage pair.element).map (·.features)) pair.appearance := by
  cases hpairs : styling.pairs doc with
  | error fault =>
      refine .inl ⟨⟨fault, rfl⟩, ?_⟩
      by_contra hnone
      have hread : ∀ e ∈ doc.toList, ∃ answer, styling.lookedPair? doc e = .ok answer := by
        refine fun e he => exists_map_iff.2 (exists_appearance?_iff.2 fun hshown => ?_)
        by_contra hneither
        exact hnone ⟨e, he, hshown, not_or.1 hneither⟩
      obtain ⟨answers, hanswers⟩ := exists_mapM_iff.2 hread
      rw [pairs_eq_mapM, hanswers] at hpairs
      contradiction
  | ok pairs =>
      rw [pairs_eq_mapM] at hpairs
      obtain ⟨answers, hanswers, rfl⟩ := map_eq_ok_iff.1 hpairs
      have helements := map_filterMap_of_mapM (fun e answer => map_element_of_lookedPair?) hanswers
      refine .inr ⟨_, rfl, helements, ?_, fun pair hpair => ?_⟩
      · have hindices : (answers.filterMap id).map (·.element.index) =
            (doc.toList.filter (styling.isAudited doc)).map (·.index) := by
          rw [← helements, List.map_map]
          rfl
        rw [hindices]
        refine List.Pairwise.sublist (List.filter_sublist.map _) ?_
        rw [doc.map_index_toList]
        exact List.pairwise_lt_range
      · obtain ⟨_, hmem, rfl⟩ := List.mem_filterMap.1 hpair
        obtain ⟨e, -, he⟩ := exists_of_mem_mapM hanswers hmem
        obtain ⟨helement, hcomposites⟩ := composites_of_lookedPair? he
        rw [helement]
        exact ⟨(styling.answerAfter_eq doc [] e).trans he, hcomposites.isFinal_background,
          fun hresolved => hcomposites.isFinal_foreground (Bool.and_eq_true_iff.1 hresolved).2,
          hcomposites⟩

/-- The panel has no text of its own, so only its note has a pair. -/
example : Panel.document.toList.filter (bare.isAudited Panel.document) = [Panel.note] ∧
    bare.pairs Panel.document = .ok [Panel.notePair] := by
  decide +kernel

end Styling

end ContrastAudit
