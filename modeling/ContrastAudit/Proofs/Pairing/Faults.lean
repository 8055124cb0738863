import ContrastAudit.Proofs.Color.Screen
import ContrastAudit.Proofs.Pairing.KeptSurfaces

/-!
# When a document has pairs

A text that is not understood leaves a color, a size or a weight unknown, and the element with it
still has a pair or none.  A fault is different, as it ends the analysis of the whole document.

Only three things can fault: the reading of a color, the meaning of utility classes, and the reading
of a weight.  What is done with the colors afterwards cannot, because every color that is read has
bytes for channels: painting keeps them bytes, and any two such colors have a contrast ratio.

**Results.**
* `exists_pairs_iff`: a document has pairs exactly if every shown element of it has readable texts,
  and every pair has a verdict.
-/

namespace ContrastAudit

/-! ## Weights -/

/-- A text of digits that writes no number: some of them have no decimal value, or there are too
many. -/
def Font.IsMiscounted (value : Option String) : Prop :=
  ∃ text ∈ value,
    let digits := Text.lower (Text.trim text.toList)
    digits ≠ [] ∧ digits.all Text.isDigitLike = true ∧
      ¬ (digits.all Text.isDecimal = true ∧ digits.length ≤ Font.maxDigits)

instance Font.decidableIsMiscounted (value : Option String) :
    Decidable (Font.IsMiscounted value) :=
  inferInstanceAs (Decidable (∃ text ∈ value, _ ≠ [] ∧ _ ∧ ¬ (_ ∧ _)))

/-- A weight is read unless it is miscounted. -/
theorem Font.exists_weight?_iff {value : Option String} :
    (∃ weight, Font.weight? value = .ok weight) ↔ ¬ Font.IsMiscounted value := by
  cases value with
  | none => exact ⟨fun _ => by rintro ⟨_, ⟨⟩, _⟩, fun _ => ⟨none, rfl⟩⟩
  | some text =>
      by_cases hempty : text = ""
      · subst hempty
        exact ⟨fun _ => by decide, fun _ => ⟨none, rfl⟩⟩
      · simp only [Font.IsMiscounted, Option.mem_def, Option.some.injEq, exists_eq_left']
        unfold Font.weight?
        split
        · contradiction
        · next heq => exact absurd (Option.some.inj heq) hempty
        · next heq =>
            cases heq
            dsimp only
            split_ifs with hlike hcounted
            · simp_all
            · simp_all
            · split <;> simp_all

/-! ## Colors -/

/-- If the color is known, its channels are bytes. -/
def ColorInfo.OnScreen (info : ColorInfo) : Prop :=
  ∀ color ∈ info.color, color.OnScreen

namespace ColorInfo

theorem onScreen_defaultForeground : defaultForeground.OnScreen := by
  rintro color ⟨⟩
  exact ⟨by decide, by decide, by decide⟩

theorem onScreen_defaultBackground : defaultBackground.OnScreen := by
  rintro color ⟨⟩
  exact Color.onScreen_white

/-- A known or unknown color can be painted on any surface. -/
theorem exists_paint {info surface : ColorInfo} (hinfo : info.OnScreen)
    (hsurface : surface.OnScreen) :
    ∃ painted, info.paint surface = .ok painted ∧ painted.OnScreen := by
  unfold paint
  cases hc : info.color with
  | none => exact ⟨info, rfl, hinfo⟩
  | some color =>
      dsimp only
      by_cases hsolid : color.isSolid = true
      · rw [if_pos hsolid]
        exact ⟨info, rfl, hinfo⟩
      · rw [if_neg hsolid]
        cases hb : surface.color with
        | none => exact ⟨_, rfl, by rintro _ ⟨⟩⟩
        | some behind =>
            obtain ⟨painted, hpainted, hscreen⟩ :=
              Color.exists_onto (hinfo color hc) (hsurface behind hb)
            refine ⟨{ info with color := some painted, authored := some color }, ?_, ?_⟩
            · dsimp only
              rw [hpainted]
              rfl
            · rintro _ ⟨⟩
              exact hscreen

end ColorInfo

/-- A pair whose colors are on the screen has a verdict, or none because a color is unknown. -/
theorem ContrastPair.exists_evaluate {pair : ContrastPair} (hf : pair.foreground.OnScreen)
    (hb : pair.background.OnScreen) : ∃ verdict, pair.evaluate = .ok verdict := by
  unfold evaluate
  split
  · next front back hfront hback =>
      obtain ⟨ratio, hratio⟩ := Color.exists_contrastRatio (hf front hfront) (hb back hback)
      rw [Verdict.ofColors, hratio]
      exact ⟨_, rfl⟩
  · exact ⟨none, rfl⟩

namespace SpecifiedColor

/-- What a specified color is can be told, be it that it is none. -/
def IsReadable (specified : SpecifiedColor) (side : Side) : Prop :=
  ∃ color, specified.materialize side = .ok color

instance decidableIsReadable (specified : SpecifiedColor) (side : Side) :
    Decidable (specified.IsReadable side) :=
  inferInstanceAs (Decidable (∃ color, specified.materialize side = .ok color))

/-- The background shows nothing of what is behind it, or is unknown itself. -/
def Hides (specified : SpecifiedColor) : Prop :=
  ∃ color, specified.materialize .background = .ok color ∧ color.all (·.isSolid) = true

instance decidableHides (specified : SpecifiedColor) : Decidable specified.Hides :=
  inferInstanceAs (Decidable (∃ color, specified.materialize .background = .ok color ∧ _))

theorem onScreen_of_materialize {specified : SpecifiedColor} {side : Side} {color : Color}
    (h : specified.materialize side = .ok (some color)) : color.OnScreen := by
  obtain ⟨text, -, h⟩ := bind_eq_ok_iff.1 h
  split at h
  · cases h
  · split at h
    · cases h
      exact ⟨by decide, by decide, by decide⟩
    · exact Color.onScreen_of_parse h

theorem exists_info {specified : SpecifiedColor} {side : Side}
    (h : specified.IsReadable side) (label : String) :
    ∃ info, specified.info side label = .ok info ∧ info.OnScreen := by
  obtain ⟨color, hcolor⟩ := h
  refine ⟨⟨specified.written, color, specified.source, label, none⟩, ?_, ?_⟩
  · rw [info, hcolor]
    rfl
  · rintro known hknown
    exact onScreen_of_materialize (hcolor.trans (congrArg Except.ok hknown))

theorem isReadable_of_info {specified : SpecifiedColor} {side : Side} {label : String}
    {info : ColorInfo} (h : specified.info side label = .ok info) : specified.IsReadable side :=
  ⟨info.color, Styling.materialize_of_info h⟩

end SpecifiedColor

namespace Styling

/-- What is specified for a side of a lineage can be told, and so can its color. -/
def Reads (styling : Styling) (lineage : List Features) (side : Side) : Prop :=
  ∃ specified, styling.specified? lineage side = .ok specified ∧
    ∀ own ∈ specified, own.IsReadable side

instance decidableReads (styling : Styling) (lineage : List Features) (side : Side) :
    Decidable (styling.Reads lineage side) :=
  inferInstanceAs (Decidable (∃ specified, styling.specified? lineage side = .ok specified ∧ _))

/-- The background of the page can be told. -/
def ReadsPage (styling : Styling) : Prop :=
  ∀ winner ∈ Cascade.pageBackground styling.rules,
    (SpecifiedColor.ofWinner winner).IsReadable .background

/-- The backgrounds of the page and of some ancestors can be told, nearest first. -/
def ReadsBehind (styling : Styling) : List Features → Prop
  | [] => styling.ReadsPage
  | f :: above => styling.Reads (f :: above) .background ∧ styling.ReadsBehind above

instance decidableReadsBehind (styling : Styling) :
    ∀ lineage : List Features, Decidable (styling.ReadsBehind lineage)
  | [] => inferInstanceAs (Decidable (∀ winner ∈ Cascade.pageBackground styling.rules,
      (SpecifiedColor.ofWinner winner).IsReadable .background))
  | _ :: above =>
      have := styling.decidableReadsBehind above
      inferInstanceAs (Decidable (_ ∧ styling.ReadsBehind above))

/-- The first element of a lineage has no color of its own. -/
def IsPlain (styling : Styling) (lineage : List Features) : Prop :=
  styling.specified? lineage .foreground = .ok none ∧
    styling.specified? lineage .background = .ok none

instance decidableIsPlain (styling : Styling) (lineage : List Features) :
    Decidable (styling.IsPlain lineage) :=
  inferInstanceAs (Decidable (_ ∧ _))

/-- All texts that the look of the first element of a lineage depends on can be read.  What is
behind the element counts only where its own background does not hide it. -/
structure IsLegible (styling : Styling) (lineage : List Features) : Prop where
  foreground : styling.Reads lineage .foreground
  background : styling.Reads lineage .background
  behind :
    (∃ specified, styling.specified? lineage .background = .ok specified ∧
      ∃ own ∈ specified, own.Hides) ∨ styling.ReadsBehind lineage.tail
  weight : ¬ Font.IsMiscounted (styling.fontWeight? lineage)

instance decidableIsLegible (styling : Styling) (lineage : List Features) :
    Decidable (styling.IsLegible lineage) :=
  decidable_of_iff
    (styling.Reads lineage .foreground ∧ styling.Reads lineage .background ∧
      ((∃ specified, styling.specified? lineage .background = .ok specified ∧
        ∃ own ∈ specified, own.Hides) ∨ styling.ReadsBehind lineage.tail) ∧
      ¬ Font.IsMiscounted (styling.fontWeight? lineage))
    ⟨fun ⟨hfg, hbg, hbehind, hweight⟩ => ⟨hfg, hbg, hbehind, hweight⟩,
      fun h => ⟨h.foreground, h.background, h.behind, h.weight⟩⟩

section Surfaces

variable {styling : Styling}

theorem exists_pageSurface (h : styling.ReadsPage) :
    ∃ surface, styling.pageSurface = .ok surface ∧ surface.OnScreen := by
  unfold pageSurface
  cases hw : Cascade.pageBackground styling.rules with
  | none => exact ⟨_, rfl, ColorInfo.onScreen_defaultBackground⟩
  | some winner =>
      obtain ⟨info, hinfo, hscreen⟩ := SpecifiedColor.exists_info (h winner hw) _
      dsimp only
      rw [hinfo, ok_bind]
      exact ColorInfo.exists_paint hscreen ColorInfo.onScreen_defaultBackground

theorem readsPage_of_pageSurface {surface : ColorInfo} (h : styling.pageSurface = .ok surface) :
    styling.ReadsPage := by
  intro winner hw
  rw [Option.mem_def] at hw
  rw [pageSurface, hw] at h
  obtain ⟨info, hinfo, -⟩ := bind_eq_ok_iff.1 h
  exact SpecifiedColor.isReadable_of_info hinfo

/-- The surface behind an element is there if everything behind it is read. -/
theorem exists_surfaceBehind {lineage : List Features} (h : styling.ReadsBehind lineage) :
    ∃ surface, styling.surfaceBehind lineage = .ok surface ∧ surface.OnScreen := by
  induction lineage with
  | nil => exact exists_pageSurface h
  | cons f above ih =>
      obtain ⟨⟨specified, hspecified, hread⟩, habove⟩ := h
      obtain ⟨behind, hbehind, hscreen⟩ := ih habove
      rw [surfaceBehind, surfaceOn, hspecified, ok_bind, hbehind]
      cases specified with
      | none => exact ⟨behind, rfl, hscreen⟩
      | some own =>
          obtain ⟨info, hinfo, hown⟩ :=
            SpecifiedColor.exists_info (hread own rfl) (own.inheritedLabel f)
          dsimp only
          rw [hinfo, ok_bind, ok_bind]
          exact ColorInfo.exists_paint hown hscreen

theorem readsBehind_of_surfaceBehind {lineage : List Features} {surface : ColorInfo}
    (h : styling.surfaceBehind lineage = .ok surface) : styling.ReadsBehind lineage := by
  induction lineage generalizing surface with
  | nil => exact readsPage_of_pageSurface h
  | cons f above ih =>
      rw [surfaceBehind] at h
      obtain ⟨specified, hspecified, h⟩ := bind_eq_ok_iff.1 h
      cases specified with
      | none => exact ⟨⟨none, hspecified, by rintro _ ⟨⟩⟩, ih h⟩
      | some own =>
          obtain ⟨info, hinfo, h⟩ := bind_eq_ok_iff.1 h
          obtain ⟨behind, hbehind, -⟩ := bind_eq_ok_iff.1 h
          refine ⟨⟨some own, hspecified, ?_⟩, ih hbehind⟩
          rintro _ ⟨⟩
          exact SpecifiedColor.isReadable_of_info hinfo

/-- A background is there if it is read, and what is behind it is there or hidden. -/
theorem exists_backgroundOn {specified : Option SpecifiedColor}
    {behind : Except NumericFault ColorInfo} (hread : ∀ own ∈ specified, own.IsReadable .background)
    (h : (∃ own ∈ specified, own.Hides) ∨ ∃ surface, behind = .ok surface ∧ surface.OnScreen) :
    ∃ info, backgroundOn specified behind = .ok info ∧ info.OnScreen := by
  cases specified with
  | none =>
      rcases h with ⟨_, ⟨⟩, _⟩ | h
      exact h
  | some own =>
      obtain ⟨info, hinfo, hown⟩ := SpecifiedColor.exists_info (hread own rfl) own.selector
      rw [backgroundOn, hinfo, ok_bind]
      by_cases hf : info.isFinal = true
      · rw [if_pos hf]
        exact ⟨info, rfl, hown⟩
      · rw [if_neg hf]
        rcases h with ⟨_, ⟨⟩, color, hcolor, hsolid⟩ | ⟨surface, rfl, hscreen⟩
        · rw [materialize_of_info hinfo, Except.ok.injEq] at hcolor
          rw [← hcolor] at hsolid
          exact absurd hsolid hf
        · exact ColorInfo.exists_paint hown hscreen

theorem readable_of_backgroundOn {specified : Option SpecifiedColor}
    {behind : Except NumericFault ColorInfo} {info : ColorInfo}
    (h : backgroundOn specified behind = .ok info) :
    (∀ own ∈ specified, own.IsReadable .background) ∧
      ((∃ own ∈ specified, own.Hides) ∨ ∃ surface, behind = .ok surface) := by
  cases specified with
  | none => exact ⟨by rintro _ ⟨⟩, .inr ⟨info, h⟩⟩
  | some own =>
      obtain ⟨info, hinfo, h⟩ := bind_eq_ok_iff.1 h
      constructor
      · rintro _ ⟨⟩
        exact SpecifiedColor.isReadable_of_info hinfo
      · by_cases hf : info.isFinal = true
        · exact .inl ⟨own, rfl, info.color, materialize_of_info hinfo, hf⟩
        · rw [if_neg hf] at h
          obtain ⟨surface, hsurface, -⟩ := bind_eq_ok_iff.1 h
          exact .inr ⟨surface, hsurface⟩

theorem exists_foreground {specified : Option SpecifiedColor} {background : ColorInfo}
    (hread : ∀ own ∈ specified, own.IsReadable .foreground) (hscreen : background.OnScreen) :
    ∃ info, foreground specified background = .ok info ∧ info.OnScreen := by
  cases specified with
  | none => exact ⟨_, rfl, ColorInfo.onScreen_defaultForeground⟩
  | some own =>
      obtain ⟨info, hinfo, hown⟩ := SpecifiedColor.exists_info (hread own rfl) own.selector
      rw [foreground, hinfo, ok_bind]
      split
      · exact ⟨info, rfl, hown⟩
      · exact ColorInfo.exists_paint hown hscreen

theorem readable_of_foreground {specified : Option SpecifiedColor} {background info : ColorInfo}
    (h : foreground specified background = .ok info) :
    ∀ own ∈ specified, own.IsReadable .foreground := by
  rintro own ⟨⟩
  obtain ⟨info, hinfo, -⟩ := bind_eq_ok_iff.1 h
  exact SpecifiedColor.isReadable_of_info hinfo

/-- Readable texts make a look with colors on the screen. -/
theorem exists_look {lineage : List Features} (h : styling.IsLegible lineage) :
    ∃ look, styling.appearance? true lineage = .ok look ∧
      ∀ a ∈ look, a.foreground.OnScreen ∧ a.background.OnScreen := by
  obtain ⟨⟨fg, hfg, hforeground⟩, ⟨bg, hbg, hbackground⟩, hbehind, hweight⟩ := h
  have hsurface : (∃ own ∈ bg, own.Hides) ∨
      ∃ surface, styling.surfaceBehind lineage.tail = .ok surface ∧ surface.OnScreen := by
    rcases hbehind with ⟨specified, hspecified, hides⟩ | hread
    · rw [hbg, Except.ok.injEq] at hspecified
      exact .inl (hspecified ▸ hides)
    · exact .inr (exists_surfaceBehind hread)
  obtain ⟨background, hb, hbscreen⟩ := exists_backgroundOn hbackground hsurface
  obtain ⟨foreground, hf, hfscreen⟩ := exists_foreground hforeground hbscreen
  obtain ⟨weight, hw⟩ := Font.exists_weight?_iff.2 hweight
  rw [appearance?, hfg, ok_bind, hbg, ok_bind, hb, ok_bind, hf, ok_bind, hw]
  by_cases hnone : (fg.isNone && bg.isNone) = true
  · exact ⟨none, by simp [hnone, pure, Except.pure], by rintro _ ⟨⟩⟩
  · refine ⟨_, by simp only [Bool.not_true, Bool.false_eq_true, if_false, if_neg hnone]; rfl, ?_⟩
    rintro _ ⟨⟩
    exact ⟨hfscreen, hbscreen⟩

theorem appearance?_of_isPlain {lineage : List Features} (h : styling.IsPlain lineage) :
    styling.appearance? true lineage = .ok none := by
  obtain ⟨hfg, hbg⟩ := h
  rw [appearance?, hfg, ok_bind, hbg]
  rfl

/-- An element looks like something, or like nothing, exactly if it is not shown, has no color of
its own, or has readable texts. -/
theorem exists_appearance?_iff {shown : Bool} {lineage : List Features} :
    (∃ look, styling.appearance? shown lineage = .ok look) ↔
      (shown = true → styling.IsPlain lineage ∨ styling.IsLegible lineage) := by
  constructor
  · rintro ⟨look, h⟩ rfl
    obtain ⟨fg, hfg, h⟩ := bind_eq_ok_iff.1 h
    obtain ⟨bg, hbg, h⟩ := bind_eq_ok_iff.1 h
    by_cases hnone : (fg.isNone && bg.isNone) = true
    · rw [Bool.and_eq_true, Option.isNone_iff_eq_none, Option.isNone_iff_eq_none] at hnone
      obtain ⟨rfl, rfl⟩ := hnone
      exact .inl ⟨hfg, hbg⟩
    · rw [if_neg hnone] at h
      obtain ⟨background, hbackground, h⟩ := bind_eq_ok_iff.1 h
      obtain ⟨foreground, hforeground, h⟩ := bind_eq_ok_iff.1 h
      obtain ⟨weight, hweight, -⟩ := bind_eq_ok_iff.1 h
      obtain ⟨hread, hbehind⟩ := readable_of_backgroundOn hbackground
      refine .inr ⟨⟨fg, hfg, readable_of_foreground hforeground⟩, ⟨bg, hbg, hread⟩, ?_,
        Font.exists_weight?_iff.1 ⟨weight, hweight⟩⟩
      rcases hbehind with hides | ⟨surface, hsurface⟩
      · exact .inl ⟨bg, hbg, hides⟩
      · exact .inr (readsBehind_of_surfaceBehind hsurface)
  · intro h
    cases shown with
    | false => exact ⟨none, rfl⟩
    | true =>
        rcases h rfl with hplain | hlegible
        · exact ⟨none, appearance?_of_isPlain hplain⟩
        · obtain ⟨look, hlook, -⟩ := exists_look hlegible
          exact ⟨look, hlook⟩

theorem onScreen_of_appearance? {shown : Bool} {lineage : List Features} {a : Appearance}
    (h : styling.appearance? shown lineage = .ok (some a)) :
    a.foreground.OnScreen ∧ a.background.OnScreen := by
  cases shown with
  | false => cases h
  | true =>
      rcases exists_appearance?_iff.1 ⟨_, h⟩ rfl with hplain | hlegible
      · rw [appearance?_of_isPlain hplain] at h
        cases h
      · obtain ⟨look, hlook, hscreen⟩ := exists_look hlegible
        rw [h, Except.ok.injEq] at hlook
        exact hscreen a hlook.symm

end Surfaces

/-! ## Documents -/

/-- Every pair of a document has a verdict, or none because a color is unknown. -/
theorem exists_evaluate_of_pairs {styling : Styling} {doc : Document} {pairs : List ContrastPair}
    (h : styling.pairs doc = .ok pairs) {pair : ContrastPair} (hpair : pair ∈ pairs) :
    ∃ verdict, pair.evaluate = .ok verdict := by
  rw [pairs_eq_mapM] at h
  obtain ⟨answers, hanswers, rfl⟩ := map_eq_ok_iff.1 h
  obtain ⟨_, hmem, rfl⟩ := List.mem_filterMap.1 hpair
  obtain ⟨e, -, he⟩ := exists_of_mem_mapM hanswers hmem
  obtain ⟨look, hlook, hpairOf⟩ := map_eq_ok_iff.1 he
  obtain ⟨a, rfl, rfl⟩ := Option.map_eq_some_iff.1 hpairOf
  obtain ⟨hforeground, hbackground⟩ := onScreen_of_appearance? hlook
  exact ContrastPair.exists_evaluate hforeground hbackground

/-- A document has pairs exactly if every shown element of it has no color of its own or has
readable texts, and every pair has a verdict. -/
theorem exists_pairs_iff (styling : Styling) (doc : Document) :
    ((∃ pairs, styling.pairs doc = .ok pairs) ↔
        ∀ e ∈ doc.toList, isShown e = true →
          styling.IsPlain ((doc.lineage e).map (·.features)) ∨
            styling.IsLegible ((doc.lineage e).map (·.features))) ∧
      ∀ pairs, styling.pairs doc = .ok pairs →
        ∀ pair ∈ pairs, ∃ verdict, pair.evaluate = .ok verdict := by
  constructor
  · rw [pairs_eq_mapM, exists_map_iff, exists_mapM_iff]
    refine forall₂_congr fun e _ => ?_
    rw [lookedPair?, exists_map_iff, exists_appearance?_iff]
  · exact fun pairs h pair hpair => exists_evaluate_of_pairs h hpair

end Styling

namespace Panel

/-- The note on its panel is legible, so there are pairs, and each of them has a verdict. -/
theorem exists_pairs_note :
    (∃ pairs, Styling.bare.pairs document = .ok pairs) ∧
      ∃ verdict, notePair.evaluate = .ok verdict := by
  obtain ⟨hpairs, hverdicts⟩ := Styling.exists_pairs_iff Styling.bare document
  have pairs : Styling.bare.pairs document = .ok [notePair] := by decide +kernel
  exact ⟨hpairs.2 (by decide +kernel), hverdicts _ pairs notePair (by simp)⟩

/-- A paragraph whose weight is a digit, but not a decimal one. -/
def squared : Element :=
  { features := { tag := "p", inline := { color := some "red", fontWeight := some "²" } }
    hasText := true
    index := 0
    parent := none }

/-- The paragraph alone. -/
def squaredAlone : Document :=
  Document.empty.attach squared.toContent none

/-- One such weight leaves a document without pairs. -/
theorem not_exists_pairs_squared :
    ¬ ∃ pairs, Styling.bare.pairs squaredAlone = .ok pairs := by
  decide +kernel

end Panel

end ContrastAudit
